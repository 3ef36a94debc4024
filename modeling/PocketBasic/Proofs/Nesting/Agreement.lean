import PocketBasic.Proofs.Nesting.Kept

/-!
# The block stack follows the nesting of the program

In a well-nested program without jumps the block stack holds, at every moment of every run, one entry for
each block around the statement to come, and the entry is an opener of that block. So an End always finds
its block open. The agreement is kept by every call of the host until a fault ends the program, and after
that nothing changes any more. Blocks may be left open at the end of the program: a run does not come to know
of the Ends that it lacks.
-/

namespace PocketBasic

section Closed

variable {p : Program} {k i : Nat} {s s' : State} {c : Command}

def Program.closed (p : Program) (k : Nat) : Program :=
  { p with statements := p.statements ++ List.replicate k ⟨0, .endMark⟩ }

theorem Program.closed_statement (h : i < p.statements.length) :
    (p.closed k).statements[i]? = p.statements[i]? := List.getElem?_append_left h

theorem Program.thenAt_closed_iff : (p.closed k).ThenAt i ↔ p.ThenAt i := by
  refine exists_congr fun line => ?_
  rcases Nat.lt_or_ge i p.statements.length with hlt | hge
  · rw [closed_statement hlt]
  · rw [closed, List.getElem?_append_right hge, List.getElem?_eq_none hge, List.getElem?_replicate]
    split <;> simp

theorem Program.LoopAt.closed (h : p.LoopAt i) : (p.closed k).LoopAt i := by
  obtain ⟨st, hst, hloop⟩ := h
  exact ⟨st, (closed_statement (List.getElem?_eq_some_iff.mp hst).1).trans hst, hloop⟩

theorem Command.Moves.closed {blocks blocks' : List Nat} {i' : Nat} (h : c.Moves p i blocks i' blocks') :
    c.Moves (p.closed k) i blocks i' blocks' := by
  cases c with
  | ifTest cond =>
    unfold Command.Moves at h ⊢
    rwa [Program.thenAt_closed_iff]
  | endMark => exact ⟨h.1, h.2.imp_right fun hback => ⟨hback.1, hback.2.closed⟩⟩
  | _ => exact h

theorem State.Moves.closed (h : Moves p s s') : Moves (p.closed k) s s' := by
  refine h.imp_right ?_
  rintro ⟨st, hst, hmoves⟩
  have hlt : s.pc < p.statements.length := (List.getElem?_eq_some_iff.mp hst).1
  exact ⟨st, (Program.closed_statement hlt).trans hst, hmoves.closed⟩

end Closed

section Runs

variable {p : Program} {t : Nest false} {s : State} {selection : Int} {k : Nat}

/-- The state is at a position of the tree, or right behind it, and its stack agrees with the tree. -/
structure State.FollowsNest (t : Nest false) (s : State) : Prop where
  choice : s.choice = none
  pc : s.pc ≤ t.size
  agrees : Agrees (t.enclosing 0 [] s.pc) s.blocks

structure State.Ended (p : Program) (s : State) : Prop where
  choice : s.choice = none
  statement : p.statements[s.pc]? = none

theorem State.ended_halt (s : State) (p : Program) (fault : Fault) : (s.halt p fault).state.Ended p :=
  ⟨rfl, List.getElem?_eq_none (Nat.le_refl _)⟩

/-- A program that has ended stays as it is and reports no fault. -/
theorem State.Ended.step (h : s.Ended p) (selection : Int) :
    (s.step p selection).state = s ∧
      ∀ fault, (s.step p selection).status ≠ .halted (some fault) := by
  have hstep := stepped_step p s selection
  generalize s.step p selection = o at hstep ⊢
  cases hstep with
  | waits _ => exact ⟨rfl, by simp⟩
  | ends _ _ _ => exact ⟨rfl, by simp⟩
  | chooses _ hc _ _ _ =>
    rw [h.choice] at hc
    cases hc
  | passes _ _ hst _ =>
    rw [h.statement] at hst
    cases hst
  | runs _ _ hst _ _ =>
    rw [h.statement] at hst
    cases hst
  | fails _ hf =>
    cases hf with
    | option hc _ _ _ | selection hc _ =>
      rw [h.choice] at hc
      cases hc
    | goto hst _ | unbalanced hst _ | program hst =>
      rw [h.statement] at hst
      cases hst

/-- A step of a program that follows its tree goes on following it, or it ends the program with a fault
other than an End without a block. -/
theorem State.FollowsNest.step
    (hp : p.statements.map (·.command) ++ List.replicate k .endMark = t.commands)
    (hjump : ∀ c ∈ t.commands, c.isJump = false) (h : s.FollowsNest t) (selection : Int) :
    (∃ fault, s.step p selection = s.halt p fault ∧ ∀ line, fault ≠ .unbalancedEnd line) ∨
      (∀ fault, (s.step p selection).status ≠ .halted (some fault)) ∧
        (s.step p selection).state.FollowsNest t := by
  have hclosed : (p.closed k).statements.map (·.command) = t.commands := by
    rw [Program.closed, List.map_append, List.map_replicate, hp]
  have hcode : Code (p.closed k) 0 t.commands := ⟨[], [], by simp [hclosed], rfl⟩
  have hlength : p.statements.length ≤ t.size := by
    rw [Nest.size, ← hp, List.length_append, List.length_map]
    exact Nat.le_add_right _ _
  have hjump' : ∀ st ∈ p.statements, st.command.isJump = false := by
    intro st hst
    exact hjump st.command (hp ▸ List.mem_append_left _ (List.mem_map_of_mem hst))
  have hkept (hlt : s.pc < p.statements.length) :
      Kept (p.closed k) (t.enclosing 0 [] ·) 0 (0 + t.size) s.pc :=
    kept_nest t hcode (t.divides_nothing _ _) (Nat.zero_le _) (by omega)
  rcases moves_step hjump' h.choice selection with ⟨fault, hhalt, hfails⟩ | ⟨hstatus, hmoves, hchoice⟩
  · refine .inl ⟨fault, hhalt, ?_⟩
    rintro line rfl
    cases hfails with
    | unbalanced hst hblocks =>
      have hlt : s.pc < p.statements.length := (List.getElem?_eq_some_iff.mp hst).1
      have hagrees := h.agrees
      rw [hblocks] at hagrees
      exact (hkept hlt).inside line ((Program.closed_statement hlt).trans hst)
        (List.forall₂_nil_right_iff.mp hagrees)
  · refine .inr ⟨hstatus, ?_⟩
    rcases Nat.lt_or_ge s.pc p.statements.length with hlt | hge
    · obtain ⟨-, hle, hagrees⟩ := (hkept hlt).moves s _ hmoves.closed rfl h.agrees
      exact ⟨hchoice, by omega, hagrees⟩
    · have hend : s.Ended p := ⟨h.choice, List.getElem?_eq_none hge⟩
      rw [(hend.step selection).1]
      exact h

theorem State.Ended.setInput (h : s.Ended p) (line : String) : (s.setInput line).Ended p := by
  unfold State.setInput
  split
  · exact ⟨h.choice, h.statement⟩
  · exact h

theorem State.FollowsNest.setInput (h : s.FollowsNest t) (line : String) :
    (s.setInput line).FollowsNest t := by
  unfold State.setInput
  split
  · exact ⟨h.choice, h.pc, h.agrees⟩
  · exact h

namespace HostCall

/-- The fault with which a call ends the program, if it does. -/
def fault? (p : Program) (s : State) : HostCall → Option Fault
  | .step selection =>
    match (s.step p selection).status with
    | .halted fault => fault
    | _ => none
  | _ => none

/-- The faults with which calls from a state end the program. -/
def faults (p : Program) (s : State) : List HostCall → List Fault
  | [] => []
  | call :: calls => (call.fault? p s).toList ++ faults p (call.apply p s) calls

theorem fault?_step (hno : ∀ fault, (s.step p selection).status ≠ .halted (some fault)) :
    fault? p s (.step selection) = none := by
  simp only [fault?]
  split
  · next fault hstatus =>
    cases fault with
    | none => rfl
    | some fault => exact absurd hstatus (hno fault)
  · rfl

theorem faults_of_ended (h : s.Ended p) (calls : List HostCall) : faults p s calls = [] := by
  induction calls generalizing s with
  | nil => rfl
  | cons call calls ih =>
    cases call with
    | step selection =>
      obtain ⟨hstate, hno⟩ := h.step selection
      rw [faults, fault?_step hno, apply, hstate]
      exact ih h
    | input line => exact ih (h.setInput line)
    | key code => exact ih ⟨h.choice, h.statement⟩
    | assign name v => exact ih ⟨h.choice, h.statement⟩

/-- A run follows the tree until a fault ends it, and that fault is not an End without a block. -/
theorem followsNest_run (hp : p.statements.map (·.command) ++ List.replicate k .endMark = t.commands)
    (hjump : ∀ c ∈ t.commands, c.isJump = false) (h : s.FollowsNest t) (calls : List HostCall) :
    (∀ fault ∈ faults p s calls, ∀ line, fault ≠ .unbalancedEnd line) ∧
      (faults p s calls = [] → (calls.foldl (apply p) s).FollowsNest t) := by
  induction calls generalizing s with
  | nil => exact ⟨by simp [faults], fun _ => h⟩
  | cons call calls ih =>
    cases call with
    | step selection =>
      rcases h.step hp hjump selection with ⟨fault, hhalt, hne⟩ | ⟨hno, hnext⟩
      · have hlast : faults p s (.step selection :: calls) = [fault] := by
          rw [faults, fault?, apply, hhalt, faults_of_ended (State.ended_halt s p fault)]
          rfl
        rw [hlast]
        exact ⟨by simpa using hne, fun hnil => by cases hnil⟩
      · rw [faults, fault?_step hno]
        exact ih hnext
    | input line => exact ih (h.setInput line)
    | key code => exact ih ⟨h.choice, h.pc, h.agrees⟩
    | assign name v => exact ih ⟨h.choice, h.pc, h.agrees⟩

end HostCall

theorem State.followsNest_initial (t : Nest false) (dice : Dice) : (State.initial dice).FollowsNest t where
  choice := rfl
  pc := Nat.zero_le _
  agrees := by
    have hstart : t.enclosing 0 [] 0 = [] := Nest.enclosing_outside t (.inl (Nat.le_refl 0))
    rw [State.initial, hstart]
    exact .nil

/-- In a well-nested program without jumps, which may leave blocks open at its end, no call ever finds an End
without its block. As long as no fault has ended the program, the block stack has one entry for each block
around the statement to come, the innermost first, and the entry is an opener of the block. -/
theorem agrees_run_of_nested
    (hp : p.statements.map (·.command) ++ List.replicate k .endMark = t.commands)
    (hjump : ∀ c ∈ t.commands, c.isJump = false) (dice : Dice) (calls : List HostCall) :
    (∀ fault ∈ HostCall.faults p (.initial dice) calls, ∀ line, fault ≠ .unbalancedEnd line) ∧
      (HostCall.faults p (.initial dice) calls = [] →
        Agrees (t.enclosing 0 [] (HostCall.run p dice calls).pc)
          (HostCall.run p dice calls).blocks) := by
  obtain ⟨hfaults, hfollows⟩ :=
    HostCall.followsNest_run hp hjump (State.followsNest_initial t dice) calls
  exact ⟨hfaults, fun hnil => (hfollows hnil).agrees⟩

/-- A loop around a branch whose test fails and which has two Elses. -/
def blinking : Nest false :=
  .loop (.whileLoop (.text 1 "on")) rfl (.branch (.text 2 "")
    (.sequence (.guarded [] (.pause none) rfl) (.sequence .otherwise
      (.sequence (.guarded [] .clearHome rfl) (.sequence .otherwise (.guarded [] (.pause none) rfl))))))

def blinkingProgram : Program :=
  ⟨[⟨1, .whileLoop (.text 1 "on")⟩, ⟨2, .ifTest (.text 2 "")⟩, ⟨3, .thenMark⟩, ⟨4, .pause none⟩,
    ⟨5, .elseMark⟩, ⟨6, .clearHome⟩, ⟨7, .elseMark⟩, ⟨8, .pause none⟩], []⟩

/-- Six steps lead past the first part of the branch and through the second one to its other Else, which
takes the place of the first one on the stack. -/
theorem agrees_run_blinking :
    blinkingProgram.statements.map (·.command) ++ List.replicate 2 .endMark = blinking.commands ∧
      HostCall.faults blinkingProgram (.initial ⟨fun _ => 0, 0⟩)
        (.key 3 :: List.replicate 6 (.step 0)) = [] ∧
      (HostCall.run blinkingProgram ⟨fun _ => 0, 0⟩ (.key 3 :: List.replicate 6 (.step 0))).pc = 7 ∧
      blinking.enclosing 0 [] 7 = [.branch 1 [4, 6], .loop 0] ∧
      (HostCall.run blinkingProgram ⟨fun _ => 0, 0⟩
        (.key 3 :: List.replicate 6 (.step 0))).blocks = [6, 0] ∧
      Agrees (blinking.enclosing 0 [] (HostCall.run blinkingProgram ⟨fun _ => 0, 0⟩
          (.key 3 :: List.replicate 6 (.step 0))).pc)
        (HostCall.run blinkingProgram ⟨fun _ => 0, 0⟩ (.key 3 :: List.replicate 6 (.step 0))).blocks := by
  refine ⟨rfl, rfl, rfl, rfl, rfl, ?_⟩
  have hjump : ∀ c ∈ blinking.commands, c.isJump = false := by
    simp [blinking, Nest.commands, Command.isJump]
  exact (agrees_run_of_nested (p := blinkingProgram) (k := 2) rfl hjump _ _).2 rfl

end Runs

end PocketBasic
