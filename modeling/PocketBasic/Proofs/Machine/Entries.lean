import PocketBasic.Proofs.Machine.LoopStart
import PocketBasic.Proofs.Nesting.Moves

/-!
# A loop and its entry on the block stack

An entry of the block stack is told by its height from the bottom. As long as the header of a loop is not
come to again, no other entry of the loop appears above the one that the header has made, so the loop stays
marked as started for as long as that entry stands.
-/

namespace PocketBasic

theorem Command.blocks_of_moves {p : Program} {c : Command} {i i' : Nat} {blocks blocks' : List Nat}
    (h : c.Moves p i blocks i' blocks') :
    blocks' = blocks ∨ blocks' = i :: blocks ∨ blocks' = blocks.tail ∨ blocks' = i :: blocks.tail := by
  cases c with
  | whileLoop cond | repeatLoop cond | forLoop var start stop step | thenMark => exact .inr (.inl h.2)
  | ifTest cond =>
    rcases h with ⟨-, h⟩ | ⟨-, ⟨-, h⟩ | ⟨-, h⟩⟩
    · exact .inl h
    · exact .inr (.inl h)
    · exact .inl h
  | elseMark => exact .inr (.inr (.inr h.2))
  | endMark => exact .inr (.inr (.inl h.1))
  | _ => exact .inl h.2

namespace State

variable {p : Program} {s : State} {i height : Nat}

theorem blocks_step (p : Program) (s : State) (selection : Int) :
    let blocks := (s.step p selection).state.blocks
    blocks = s.blocks ∨ blocks = s.pc :: s.blocks ∨ blocks = s.blocks.tail ∨
      blocks = s.pc :: s.blocks.tail := by
  have hstep := stepped_step p s selection
  generalize s.step p selection = o at hstep ⊢
  cases hstep with
  | waits _ | chooses _ _ _ _ _ | ends _ _ _ | fails _ _ => exact .inl rfl
  | passes _ _ _ _ => exact Command.blocks_of_moves (p := p) (moves_pass s _)
  | @runs st _ _ _ hst _ hrun =>
    cases hjump : st.command.isJump with
    | false =>
      obtain ⟨⟨-, hsame⟩ | ⟨st, -, hmoves⟩, -⟩ := moves_run hst hjump hrun
      · exact .inl hsame
      · exact Command.blocks_of_moves hmoves
    | true =>
      obtain ⟨line, command⟩ := st
      cases command with
      | goto name =>
        obtain ⟨s₁, hj, rfl⟩ := map_proceed_eq_ok hrun
        obtain ⟨i, -, rfl⟩ := jump_eq_ok hj
        exact .inl rfl
      | menu title options =>
        cases hrun
        exact .inl rfl
      | _ => cases hjump

theorem blocks_step_of_atClosing (h : s.AtClosing p i) (selection : Int) :
    (s.step p selection).state.blocks = s.blocks.tail := by
  have hstep := stepped_step p s selection
  generalize s.step p selection = o at hstep ⊢
  cases hstep with
  | waits hwait => cases hwait.symm.trans h.awaiting
  | chooses _ hc _ _ _ => cases hc.symm.trans h.choice
  | ends _ _ hst =>
    obtain ⟨line, hend⟩ := h.statement
    cases hst.symm.trans hend
  | passes _ _ hst _ =>
    rw [h.command hst]
    rfl
  | @runs st _ _ _ hst _ hrun =>
    obtain ⟨line, command⟩ := st
    obtain rfl : command = .endMark := h.command hst
    obtain ⟨s₁, hend, rfl⟩ := map_proceed_eq_ok hrun
    exact (moves_runEnd hend).1
  | fails _ hf => exact absurd h (not_atClosing_of_failsWith hf)

/-- The entry of the block stack at a height, counted from the bottom. -/
def blockAt? (s : State) (height : Nat) : Option Nat := s.blocks.reverse[height]?

theorem blockAt?_top {rest : List Nat} (hblocks : s.blocks = i :: rest) :
    s.blockAt? rest.length = some i := by
  rw [blockAt?, hblocks, List.reverse_cons, ← List.length_reverse, List.getElem?_concat_length]

theorem blockAt?_of_le (h : s.blocks.length ≤ height) : s.blockAt? height = none := by
  rw [blockAt?, List.getElem?_eq_none_iff, List.length_reverse]
  exact h

theorem blockAt?_push (bs : List Nat) (i height : Nat) :
    (i :: bs).reverse[height]? = bs.reverse[height]? ∨ (i :: bs).reverse[height]? = some i ∨
      (i :: bs).reverse[height]? = none := by
  rw [List.reverse_cons, List.getElem?_append]
  split
  · exact .inl rfl
  · rw [List.getElem?_singleton]
    split
    · exact .inr (.inl rfl)
    · exact .inr (.inr rfl)

theorem blockAt?_tail (bs : List Nat) (height : Nat) :
    bs.tail.reverse[height]? = bs.reverse[height]? ∨ bs.tail.reverse[height]? = none := by
  rw [← List.dropLast_reverse, List.getElem?_dropLast]
  split
  · exact .inl rfl
  · exact .inr rfl

theorem blockAt?_step (p : Program) (s : State) (selection : Int) (height : Nat) :
    let entry := (s.step p selection).state.blockAt? height
    entry = s.blockAt? height ∨ entry = some s.pc ∨ entry = none := by
  simp only [blockAt?]
  rcases blocks_step p s selection with h | h | h | h <;> rw [h]
  · exact .inl rfl
  · exact blockAt?_push s.blocks s.pc height
  · rcases blockAt?_tail s.blocks height with h | h
    · exact .inl h
    · exact .inr (.inr h)
  · rcases blockAt?_push s.blocks.tail s.pc height with h | h
    · rcases blockAt?_tail s.blocks height with h' | h'
      · exact .inl (h.trans h')
      · exact .inr (.inr (h.trans h'))
    · exact .inr h

/-- Above the height there is no entry of the loop at position `i`, and if the entry at the height is of that
loop, the loop is marked as started. -/
structure KeepsLoop (i height : Nat) (s : State) : Prop where
  above : ∀ j, height < j → s.blockAt? j ≠ some i
  started : s.blockAt? height = some i → s.started.has i = true

/-- Away from the header of a loop, no step puts an entry of the loop on the stack. -/
theorem blockAt?_of_step (hpc : s.pc ≠ i) {selection : Int}
    (h : (s.step p selection).state.blockAt? height = some i) : s.blockAt? height = some i := by
  rcases blockAt?_step p s selection height with hsame | hput | hgone
  · exact hsame.symm.trans h
  · cases hput.symm.trans h
    exact absurd rfl hpc
  · cases hgone.symm.trans h

theorem KeepsLoop.step (h : s.KeepsLoop i height) (hpc : s.pc ≠ i) (selection : Int) :
    (s.step p selection).state.KeepsLoop i height where
  above j hj hentry := h.above j hj (blockAt?_of_step hpc hentry)
  started hentry := by
    rw [has_started_step]
    have hbefore := blockAt?_of_step hpc hentry
    refine .inr ⟨h.started hbefore, fun hclosing => ?_⟩
    -- The entry that is closed lies on top, so it is the one at the height and not there any more.
    obtain ⟨rest, hblocks⟩ := List.head?_eq_some_iff.mp hclosing.finished.1
    have htop := blockAt?_top hblocks
    have hle : rest.length ≤ height := Nat.not_lt.mp fun hlt => h.above _ hlt htop
    have hafter : (s.step p selection).state.blocks = rest := by
      rw [blocks_step_of_atClosing hclosing, hblocks, List.tail_cons]
    cases hentry.symm.trans (blockAt?_of_le (hafter ▸ hle))

end State

namespace HostCall

variable {p : Program} {s : State} {call : HostCall} {i height : Nat}

/-- A call other than a step leaves the block stack and the marks of started loops. -/
theorem apply_of_not_step (hcall : ∀ selection, call ≠ .step selection) :
    (apply p s call).blocks = s.blocks ∧ (apply p s call).started = s.started := by
  cases call with
  | step selection => exact absurd rfl (hcall selection)
  | input line =>
    simp only [apply, State.setInput]
    split <;> exact ⟨rfl, rfl⟩
  | key code => exact ⟨rfl, rfl⟩
  | assign name v => exact ⟨rfl, rfl⟩

theorem blockAt?_of_apply (hpc : s.pc ≠ i) (h : (apply p s call).blockAt? height = some i) :
    s.blockAt? height = some i := by
  by_cases hstep : ∃ selection, call = .step selection
  · obtain ⟨selection, rfl⟩ := hstep
    exact State.blockAt?_of_step hpc h
  · have hsame := apply_of_not_step (p := p) (s := s) (not_exists.mp hstep)
    rwa [State.blockAt?, hsame.1] at h

theorem keepsLoop_apply (h : s.KeepsLoop i height) (hpc : s.pc ≠ i) (call : HostCall) :
    (apply p s call).KeepsLoop i height := by
  by_cases hstep : ∃ selection, call = .step selection
  · obtain ⟨selection, rfl⟩ := hstep
    exact h.step hpc selection
  · obtain ⟨hblocks, hstarted⟩ := apply_of_not_step (p := p) (s := s) (not_exists.mp hstep)
    refine ⟨fun j hj => ?_, fun hentry => ?_⟩
    · rw [State.blockAt?, hblocks]
      exact h.above j hj
    · rw [State.blockAt?, hblocks] at hentry
      rw [hstarted]
      exact h.started hentry

end HostCall

end PocketBasic
