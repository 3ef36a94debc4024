import PocketBasic.Proofs.Machine.Pending
import PocketBasic.Proofs.Nesting.Tree

/-!
# Where a step goes and what it does to the block stack

`Command.Moves` says for each kind of statement which positions can follow and how the block stack changes,
whether the statement is run or passed over. A step that neither jumps nor fails either rests or moves so.
-/

namespace PocketBasic

def Program.ThenAt (p : Program) (i : Nat) : Prop :=
  ∃ line, p.statements[i]? = some ⟨line, .thenMark⟩

/-- The header of a loop stands at the position. -/
def Program.LoopAt (p : Program) (i : Nat) : Prop :=
  ∃ st, p.statements[i]? = some st ∧ st.command.isLoop = true

/-- What a statement at position `i` makes of the position and of the block stack. -/
def Command.Moves (p : Program) (i : Nat) (blocks : List Nat) (i' : Nat) (blocks' : List Nat) :
    Command → Prop
  | .whileLoop _ | .repeatLoop _ | .forLoop .. | .thenMark => i' = i + 1 ∧ blocks' = i :: blocks
  | .ifTest _ =>
    i' = i + 1 ∧ blocks' = blocks ∨
      i' = i + 2 ∧ (p.ThenAt (i + 1) ∧ blocks' = i :: blocks ∨
        ¬ p.ThenAt (i + 1) ∧ blocks' = blocks)
  | .elseMark => i' = i + 1 ∧ blocks' = i :: blocks.tail
  | .endMark =>
    blocks' = blocks.tail ∧ (i' = i + 1 ∨ blocks.head? = some i' ∧ p.LoopAt i')
  | _ => i' = i + 1 ∧ blocks' = blocks

theorem Command.moves_of_isLoop {p : Program} {c : Command} {i i' : Nat} {blocks blocks' : List Nat}
    (hc : c.isLoop = true) (h : c.Moves p i blocks i' blocks') :
    i' = i + 1 ∧ blocks' = i :: blocks := by
  cases c <;> first | exact h | cases hc

theorem Command.moves_of_isPlain {p : Program} {c : Command} {i i' : Nat} {blocks blocks' : List Nat}
    (hc : c.isPlain = true) (h : c.Moves p i blocks i' blocks') :
    i' = i + 1 ∧ blocks' = blocks := by
  cases c <;> first | exact h | cases hc

namespace State

variable {p : Program} {s s' : State} {o : Outcome}

/-- A step rests where it is, or it moves as the statement there says. -/
def Moves (p : Program) (s s' : State) : Prop :=
  s'.pc = s.pc ∧ s'.blocks = s.blocks ∨
    ∃ st, p.statements[s.pc]? = some st ∧ st.command.Moves p s.pc s.blocks s'.pc s'.blocks

@[simp] theorem startSkipUnless_pc (s : State) (b : Bool) : (s.startSkipUnless b).pc = s.pc := by
  cases b <;> rfl

@[simp] theorem startSkipUnless_blocks (s : State) (b : Bool) :
    (s.startSkipUnless b).blocks = s.blocks := by
  cases b <;> rfl

theorem moves_pass (s : State) (c : Command) :
    c.Moves p s.pc s.blocks (s.pass p c).pc (s.pass p c).blocks := by
  cases c with
  | ifTest cond => exact .inl ⟨rfl, rfl⟩
  | endMark => exact ⟨rfl, .inl rfl⟩
  | _ => exact ⟨rfl, rfl⟩

theorem moves_runFor (s : State) (var : String) (start stop step : Expr) :
    (s.runFor var start stop step).pc = s.pc + 1 ∧
      (s.runFor var start stop step).blocks = s.pc :: s.blocks := by
  obtain ⟨m, started, b, hrun⟩ := runFor_eq s var start stop step
  rw [hrun, startSkipUnless_pc, startSkipUnless_blocks]
  exact ⟨rfl, rfl⟩

theorem moves_runIf (s : State) (cond : Expr) :
    (Command.ifTest cond).Moves p s.pc s.blocks (s.runIf p cond).pc (s.runIf p cond).blocks := by
  simp only [runIf, eval]
  split
  · next line hthen =>
    rw [startSkipUnless_pc, startSkipUnless_blocks]
    exact .inr ⟨rfl, .inl ⟨⟨line, hthen⟩, rfl⟩⟩
  · next hother =>
    by_cases htaken : (cond.eval s.memory).1.truthy = true
    · exact .inl ⟨if_pos htaken, rfl⟩
    · refine .inr ⟨if_neg htaken, .inr ⟨?_, rfl⟩⟩
      rintro ⟨line, hthen⟩
      exact hother line hthen

theorem moves_runElse (s : State) :
    Command.elseMark.Moves p s.pc s.blocks s.runElse.pc s.runElse.blocks := by
  unfold runElse
  rw [next_startSkipUnless, startSkipUnless_pc, startSkipUnless_blocks]
  exact ⟨rfl, rfl⟩

theorem moves_runEnd {line : Nat} (h : s.runEnd p line = .ok s') :
    Command.endMark.Moves p s.pc s.blocks s'.pc s'.blocks := by
  unfold runEnd at h
  split at h
  · cases h
  · next i rest hblocks =>
    rw [hblocks]
    simp only at h
    split at h
    · next hloop =>
      cases h
      split
      · exact ⟨rfl, .inl rfl⟩
      · exact ⟨rfl, .inr ⟨rfl, _, hloop, rfl⟩⟩
    · next hloop =>
      cases h
      exact ⟨rfl, .inr ⟨rfl, _, hloop, rfl⟩⟩
    · next hloop =>
      split at h
      · cases h
        exact ⟨rfl, .inr ⟨rfl, _, hloop, rfl⟩⟩
      · cases h
        exact ⟨rfl, .inl rfl⟩
    · cases h
      exact ⟨rfl, .inl rfl⟩

theorem moves_runPrompt (s : State) (vars : List String) :
    (s.runPrompt vars).state.blocks = s.blocks ∧ (s.runPrompt vars).state.choice = s.choice ∧
      ((s.runPrompt vars).state.pc = s.pc ∨ (s.runPrompt vars).state.pc = s.pc + 1) := by
  unfold runPrompt
  split
  · exact ⟨rfl, rfl, .inr rfl⟩
  · simp only
    split
    · exact ⟨rfl, rfl, .inr rfl⟩
    · exact ⟨rfl, rfl, .inl rfl⟩

/-- A statement that is run moves as its kind says and opens no menu, unless it is a jump. -/
theorem moves_run {st : Statement} (hst : p.statements[s.pc]? = some st)
    (hjump : st.command.isJump = false) (h : s.run p st.line st.command = .ok o) :
    Moves p s o.state ∧ o.state.choice = s.choice := by
  obtain ⟨line, command⟩ := st
  cases command with
  | prompt vars =>
    cases h
    obtain ⟨hblocks, hchoice, hrest | hnext⟩ := moves_runPrompt s vars
    · exact ⟨.inl ⟨hrest, hblocks⟩, hchoice⟩
    · exact ⟨.inr ⟨_, hst, hnext, hblocks⟩, hchoice⟩
  | endMark =>
    obtain ⟨s₁, hend, rfl⟩ := map_proceed_eq_ok h
    exact ⟨.inr ⟨_, hst, moves_runEnd hend⟩, (samePending_runEnd hend).choice⟩
  | ifTest cond =>
    cases h
    exact ⟨.inr ⟨_, hst, moves_runIf s cond⟩, (samePending_runIf s p cond).choice⟩
  | elseMark =>
    cases h
    exact ⟨.inr ⟨_, hst, moves_runElse s⟩, (samePending_runElse s).choice⟩
  | forLoop var start stop step =>
    cases h
    exact ⟨.inr ⟨_, hst, moves_runFor s var start stop step⟩,
      (samePending_runFor s var start stop step).choice⟩
  | whileLoop cond =>
    cases h
    have hskip := samePending_startSkipUnless ((s.push s.pc).eval cond).2.next
      ((s.push s.pc).eval cond).1.truthy
    rw [next_startSkipUnless]
    refine ⟨.inr ⟨_, hst, ?_⟩, hskip.choice⟩
    simp only [proceed, startSkipUnless_pc, startSkipUnless_blocks]
    exact ⟨rfl, rfl⟩
  | goto name => cases hjump
  | menu title options => cases hjump
  | program name => cases h
  | pause value => cases value <;> cases h <;> exact ⟨.inr ⟨_, hst, rfl, rfl⟩, rfl⟩
  | input text var => cases text <;> cases h <;> exact ⟨.inr ⟨_, hst, rfl, rfl⟩, rfl⟩
  | _ =>
    cases h
    exact ⟨.inr ⟨_, hst, rfl, rfl⟩, rfl⟩

theorem moves_step (hjump : ∀ st ∈ p.statements, st.command.isJump = false)
    (hchoice : s.choice = none) (selection : Int) :
    (∃ fault, s.step p selection = s.halt p fault ∧ FailsWith p s selection fault) ∨
      (∀ fault, (s.step p selection).status ≠ .halted (some fault)) ∧
        Moves p s (s.step p selection).state ∧ (s.step p selection).state.choice = none := by
  have hstep := stepped_step p s selection
  generalize s.step p selection = o at hstep ⊢
  cases hstep with
  | waits _ => exact .inr ⟨by simp, .inl ⟨rfl, rfl⟩, hchoice⟩
  | chooses _ hc _ _ _ =>
    rw [hchoice] at hc
    cases hc
  | ends _ _ _ => exact .inr ⟨by simp, .inl ⟨rfl, rfl⟩, hchoice⟩
  | passes _ _ hst _ =>
    exact .inr ⟨by simp, .inr ⟨_, hst, moves_pass s _⟩,
      (samePending_pass s p _).choice.trans hchoice⟩
  | runs _ _ hst _ hrun =>
    obtain ⟨hmoves, hsame⟩ := moves_run hst (hjump _ (List.mem_of_getElem? hst)) hrun
    exact .inr ⟨fun fault => status_run_ne_halted hrun, hmoves, hsame.trans hchoice⟩
  | fails _ hf => exact .inl ⟨_, rfl, hf⟩

end State

end PocketBasic
