import Mathlib
import PocketBasic.Proofs.Block.Place
import PocketBasic.Proofs.Machine.Stepped
import PocketBasic.Program.Compile

/-!
# Where a loop starts

The header of a For loop sets the loop variable unless the loop is marked as started. The mark tells the
history of the run: the header has been run, and no End has closed the loop since. A jump out of the loop
closes nothing, so a header that is reached again after one goes on with the variable as it is.
-/

namespace PocketBasic

/-- `P` held at some moment before `n`, and `Q` has held at every moment since. -/
def Since (P Q : Nat → Prop) (n : Nat) : Prop := ∃ k < n, P k ∧ ∀ j, k < j → j < n → Q j

theorem not_since_zero (P Q : Nat → Prop) : ¬ Since P Q 0 := by
  rintro ⟨k, hk, -⟩
  exact Nat.not_lt_zero k hk

theorem since_succ {P Q : Nat → Prop} {n : Nat} :
    Since P Q (n + 1) ↔ P n ∨ Since P Q n ∧ Q n := by
  constructor
  · rintro ⟨k, hk, hp, hq⟩
    rcases Nat.lt_succ_iff_lt_or_eq.mp hk with hlt | rfl
    · have hrest : ∀ j, k < j → j < n → Q j := fun j hj hn => hq j hj (Nat.lt_succ_of_lt hn)
      exact .inr ⟨⟨k, hlt, hp, hrest⟩, hq n hlt (Nat.lt_succ_self n)⟩
    · exact .inl hp
  · rintro (hp | ⟨⟨k, hk, hp, hq⟩, hn⟩)
    · exact ⟨n, Nat.lt_succ_self n, hp, fun j hj hj' => by omega⟩
    · refine ⟨k, Nat.lt_succ_of_lt hk, hp, fun j hj hj' => ?_⟩
      rcases Nat.lt_succ_iff_lt_or_eq.mp hj' with hlt | rfl
      · exact hq j hj hlt
      · exact hn

namespace State

/-- The next step runs the header of a loop at position `i`. -/
structure AtHeader (p : Program) (i : Nat) (s : State) : Prop where
  awaiting : s.awaiting = none
  choice : s.choice = none
  running : s.skipping = false
  pc : s.pc = i
  header : ∃ line var start stop step,
    p.statements[i]? = some ⟨line, .forLoop var start stop step⟩

/-- The loop at position `i` is the innermost open block. An End closes it if the End is passed over or
the loop has left its bounds; else the End leads back to the header. -/
def Finished (p : Program) (i : Nat) (s : State) : Prop :=
  s.blocks.head? = some i ∧ ∃ line var start stop step,
    p.statements[i]? = some ⟨line, .forLoop var start stop step⟩ ∧
      (s.skipping = true ∨ (s.withinBounds var stop step).1 = false)

/-- The next step comes to an End that closes the loop at position `i`. -/
structure AtClosing (p : Program) (i : Nat) (s : State) : Prop where
  awaiting : s.awaiting = none
  choice : s.choice = none
  statement : ∃ line, p.statements[s.pc]? = some ⟨line, .endMark⟩
  finished : s.Finished p i

/-- The header at the state's position from the test of the bounds on. -/
def testBounds (s : State) (var : String) (stop step : Expr) : Outcome :=
  let (inside, s₁) := (s.push s.pc).withinBounds var stop step
  (s₁.startSkipUnless inside).next.proceed

/-- The state with the loop variable at its start value. -/
def begin (s : State) (var : String) (start : Expr) : State :=
  { s with
    memory := (start.eval s.memory).2.set var (.number (start.eval s.memory).1.toNumber)
    started := s.started.mark s.pc }

variable {p : Program} {s s' : State} {i : Nat} {st : Statement} {o : Outcome}

theorem startSkipUnless_started (s : State) (b : Bool) :
    (s.startSkipUnless b).started = s.started := by
  cases b <;> rfl

theorem has_started_runFor (s : State) (var : String) (start stop step : Expr) :
    (s.runFor var start stop step).started.has i = true ↔ s.pc = i ∨ s.started.has i = true := by
  have htest (s₁ : State) :
      (((s₁.push s₁.pc).withinBounds var stop step).2.startSkipUnless
        ((s₁.push s₁.pc).withinBounds var stop step).1).next.started = s₁.started :=
    startSkipUnless_started _ _
  unfold runFor
  cases hs : s.started.has s.pc with
  | true =>
    simp only [if_true, htest]
    constructor
    · exact .inr
    · rintro (rfl | h)
      · exact hs
      · exact h
  | false =>
    simp only [Bool.false_eq_true, if_false, htest, Marks.has_mark, Bool.or_eq_true, beq_iff_eq]
    exact or_congr eq_comm Iff.rfl

theorem has_started_clear (m : Marks) (i j : Nat) :
    (m.clear j).has i = true ↔ m.has i = true ∧ i ≠ j := by
  rw [Marks.has_clear, Bool.and_eq_true, bne_iff_ne, and_comm]

theorem finished_iff {j line : Nat} {rest : List Nat} {var : String} {start stop step : Expr}
    (hblocks : s.blocks = j :: rest)
    (hst : p.statements[j]? = some ⟨line, .forLoop var start stop step⟩) :
    s.Finished p i ↔ i = j ∧ (s.skipping = true ∨ (s.withinBounds var stop step).1 = false) := by
  constructor
  · rintro ⟨htop, line', var', start', stop', step', hst', hover⟩
    rw [hblocks] at htop
    cases htop
    rw [hst] at hst'
    cases hst'
    exact ⟨rfl, hover⟩
  · rintro ⟨rfl, hover⟩
    exact ⟨by rw [hblocks]; rfl, line, var, start, stop, step, hst, hover⟩

theorem not_finished {j : Nat} {rest : List Nat} (hblocks : s.blocks = j :: rest)
    (hst : ∀ line var start stop step,
      p.statements[j]? ≠ some ⟨line, .forLoop var start stop step⟩) : ¬ s.Finished p i := by
  rintro ⟨htop, line, var, start, stop, step, hst', -⟩
  rw [hblocks] at htop
  cases htop
  exact hst line var start stop step hst'

theorem has_started_pass_end (hskip : s.skipping = true) :
    (s.pass p .endMark).started.has i = true ↔ s.started.has i = true ∧ ¬ s.Finished p i := by
  cases hblocks : s.blocks with
  | nil =>
    have hno : ¬ s.Finished p i := by
      rintro ⟨htop, -⟩
      rw [hblocks] at htop
      cases htop
    simp only [pass, hblocks, hno, not_false_eq_true, and_true]
  | cons j rest =>
    by_cases hfor : ∃ line var start stop step,
        p.statements[j]? = some ⟨line, .forLoop var start stop step⟩
    · obtain ⟨line, var, start, stop, step, hst⟩ := hfor
      have hiff : s.Finished p i ↔ i = j := by
        rw [finished_iff hblocks hst, hskip]
        exact and_iff_left (.inl rfl)
      simp only [pass, hblocks, hst, has_started_clear, hiff, ne_eq]
    · have hno : ¬ s.Finished p i := not_finished hblocks fun line var start stop step hst =>
        hfor ⟨line, var, start, stop, step, hst⟩
      simp only [pass, hblocks, hno, not_false_eq_true, and_true]
      split
      · next hst => exact absurd ⟨_, _, _, _, _, hst⟩ hfor
      · exact Iff.rfl

theorem has_started_runEnd {line : Nat} (hskip : s.skipping = false)
    (h : s.runEnd p line = .ok s') :
    s'.started.has i = true ↔ s.started.has i = true ∧ ¬ s.Finished p i := by
  unfold runEnd at h
  split at h
  · cases h
  · next j rest hblocks =>
    simp only at h
    split at h
    · next hst =>
      have hno : ¬ s.Finished p i := not_finished hblocks (by simp [hst])
      cases h
      split <;> simp only [hno, not_false_eq_true, and_true] <;> exact Iff.rfl
    · next hst =>
      have hno : ¬ s.Finished p i := not_finished hblocks (by simp [hst])
      cases h
      simp only [hno, not_false_eq_true, and_true]
    · next line' var start stop step hst =>
      have hiff : s.Finished p i ↔ i = j ∧ (s.withinBounds var stop step).1 = false := by
        rw [finished_iff hblocks hst, hskip, or_iff_right Bool.false_ne_true]
      rw [hiff]
      split at h
      · next hinside =>
        have hinside' : (s.withinBounds var stop step).1 = true := hinside
        cases h
        simp only [hinside', Bool.true_eq_false, and_false, not_false_eq_true, and_true]
        exact Iff.rfl
      · next hinside =>
        have hinside' : (s.withinBounds var stop step).1 = false := Bool.eq_false_iff.mpr hinside
        cases h
        simp only [hinside', and_true]
        exact has_started_clear s.started i j
    · next hst₁ hst₂ hst₃ =>
      have hno : ¬ s.Finished p i := not_finished hblocks fun line var start stop step hst =>
        hst₃ line var start stop step hst
      cases h
      simp only [hno, not_false_eq_true, and_true]

/-- Only the header of a loop and an End change the marks of started loops. -/
theorem started_run (hrun : s.run p st.line st.command = .ok o)
    (hfor : ∀ var start stop step, st.command ≠ .forLoop var start stop step)
    (hend : st.command ≠ .endMark) : o.state.started = s.started := by
  obtain ⟨line, command⟩ := st
  cases command with
  | forLoop var start stop step => exact absurd rfl (hfor var start stop step)
  | endMark => exact absurd rfl hend
  | goto name =>
    obtain ⟨s₁, hj, rfl⟩ := map_proceed_eq_ok hrun
    obtain ⟨i, -, rfl⟩ := jump_eq_ok hj
    rfl
  | whileLoop cond =>
    cases hrun
    exact startSkipUnless_started _ _
  | ifTest cond =>
    cases hrun
    simp only [proceed, runIf]
    split
    · exact startSkipUnless_started _ _
    · rfl
  | elseMark =>
    cases hrun
    exact startSkipUnless_started _ _
  | prompt vars =>
    cases hrun
    unfold runPrompt
    split
    · rfl
    · simp only
      split <;> rfl
  | pause value => cases value <;> cases hrun <;> rfl
  | input question var => cases question <;> cases hrun <;> rfl
  | program name => cases hrun
  | _ =>
    cases hrun
    rfl

theorem started_pass {command : Command} (hend : command ≠ .endMark) :
    (s.pass p command).started = s.started := by
  cases command with
  | endMark => exact absurd rfl hend
  | _ => rfl

theorem AtHeader.command (h : s.AtHeader p i) (hst : p.statements[s.pc]? = some st) :
    ∃ var start stop step, st.command = .forLoop var start stop step := by
  obtain ⟨line, var, start, stop, step, hfor⟩ := h.header
  rw [← h.pc, hst] at hfor
  cases hfor
  exact ⟨var, start, stop, step, rfl⟩

theorem not_atHeader (hst : p.statements[s.pc]? = some st)
    (hfor : ∀ var start stop step, st.command ≠ .forLoop var start stop step) : ¬ s.AtHeader p i := by
  intro hat
  obtain ⟨var, start, stop, step, hcommand⟩ := hat.command hst
  exact hfor var start stop step hcommand

theorem AtClosing.command (h : s.AtClosing p i) (hst : p.statements[s.pc]? = some st) :
    st.command = .endMark := by
  obtain ⟨line, hend⟩ := h.statement
  rw [hst] at hend
  cases hend
  rfl

theorem not_atHeader_of_failsWith {sel : Int} {fault : Fault} (h : FailsWith p s sel fault) :
    ¬ s.AtHeader p i := by
  intro hat
  cases h with
  | goto hst _ | unbalanced hst _ | program hst => exact not_atHeader hst (by simp) hat
  | option hc _ _ _ | selection hc _ =>
    rw [hat.choice] at hc
    cases hc

theorem not_atClosing_of_failsWith {sel : Int} {fault : Fault} (h : FailsWith p s sel fault) :
    ¬ s.AtClosing p i := by
  intro hat
  cases h with
  | goto hst _ | program hst => cases hat.command hst
  | unbalanced _ hblocks =>
    have htop := hat.finished.1
    rw [hblocks] at htop
    cases htop
  | option hc _ _ _ | selection hc _ =>
    rw [hat.choice] at hc
    cases hc

/-- A step marks a loop as started exactly when it runs the header, and the mark lasts until a step
comes to an End that closes the loop. -/
theorem has_started_step (p : Program) (s : State) (sel : Int) (i : Nat) :
    (s.step p sel).state.started.has i = true ↔
      s.AtHeader p i ∨ s.started.has i = true ∧ ¬ s.AtClosing p i := by
  have same (s' : State) (hsame : s'.started = s.started) (hat : ¬ s.AtHeader p i)
      (hclosing : ¬ s.AtClosing p i) :
      s'.started.has i = true ↔
        s.AtHeader p i ∨ s.started.has i = true ∧ ¬ s.AtClosing p i := by
    simp only [hsame, hat, hclosing, false_or, not_false_eq_true, and_true]
  have hstepped := stepped_step p s sel
  generalize s.step p sel = o at hstepped
  cases hstepped with
  | waits hwait =>
    refine same s rfl (fun hat => ?_) (fun hat => ?_) <;> cases hwait.symm.trans hat.awaiting
  | chooses _ hc _ _ _ =>
    refine same _ rfl (fun hat => ?_) (fun hat => ?_) <;> cases hc.symm.trans hat.choice
  | ends _ _ hst =>
    refine same s rfl (fun hat => ?_) (fun hat => ?_)
    · obtain ⟨line, var, start, stop, step, hfor⟩ := hat.header
      rw [← hat.pc, hst] at hfor
      cases hfor
    · obtain ⟨line, hend⟩ := hat.statement
      cases hst.symm.trans hend
  | @passes st hwait hc hst hskip =>
    have hat : ¬ s.AtHeader p i := fun hat => by cases hskip.symm.trans hat.running
    by_cases hend : st.command = .endMark
    · have hclosing : s.AtClosing p i ↔ s.Finished p i :=
        ⟨AtClosing.finished, fun hfin => ⟨hwait, hc, ⟨st.line, by rw [hst, ← hend]⟩, hfin⟩⟩
      rw [hend, hclosing]
      simp only [hat, false_or]
      exact has_started_pass_end hskip
    · exact same _ (started_pass hend) hat fun h => hend (h.command hst)
  | @runs st _ hwait hc hst hskip hrun =>
    obtain ⟨line, command⟩ := st
    cases command with
    | forLoop var start stop step =>
      cases hrun
      have hat : s.AtHeader p i ↔ s.pc = i := by
        refine ⟨AtHeader.pc, fun hpc => ⟨hwait, hc, hskip, hpc, line, var, start, stop, step, ?_⟩⟩
        rw [← hpc, hst]
      have hclosing : ¬ s.AtClosing p i := fun h => by cases h.command hst
      simp only [hat, hclosing, not_false_eq_true, and_true]
      exact has_started_runFor s var start stop step
    | endMark =>
      obtain ⟨s₁, hend, rfl⟩ := map_proceed_eq_ok hrun
      have hat : ¬ s.AtHeader p i := not_atHeader hst (by simp)
      have hclosing : s.AtClosing p i ↔ s.Finished p i :=
        ⟨AtClosing.finished, fun hfin => ⟨hwait, hc, ⟨line, hst⟩, hfin⟩⟩
      simp only [hat, hclosing, false_or]
      exact has_started_runEnd hskip hend
    | _ =>
      refine same _ (started_run hrun (by simp) (by simp)) (not_atHeader hst (by simp)) (fun h => ?_)
      cases h.command hst
  | fails _ hfault =>
    exact same _ rfl (not_atHeader_of_failsWith hfault) (not_atClosing_of_failsWith hfault)

theorem step_atHeader {line : Nat} {var : String} {start stop step : Expr} (sel : Int)
    (hst : p.statements[i]? = some ⟨line, .forLoop var start stop step⟩) (h : s.AtHeader p i) :
    s.step p sel = if s.started.has i then s.testBounds var stop step
      else (s.begin var start).testBounds var stop step := by
  rw [← h.pc] at hst ⊢
  have hstep : s.step p sel = (s.runFor var start stop step).proceed :=
    step_of_running h.awaiting h.choice h.running hst rfl sel
  rw [hstep, runFor]
  cases s.started.has s.pc <;> rfl

end State

namespace HostCall

variable {p : Program} {dice : Dice} {calls : List HostCall} {i : Nat}

/-- Call number `k` is a step that is taken in a state with `P`. -/
def StepsFrom (p : Program) (dice : Dice) (calls : List HostCall) (P : State → Prop) (k : Nat) : Prop :=
  (∃ sel, calls[k]? = some (.step sel)) ∧ P (run p dice (calls.take k))

/-- The calls have run the header of the loop at position `i`, and no End has closed the loop since. -/
def Underway (p : Program) (dice : Dice) (calls : List HostCall) (i : Nat) : Prop :=
  Since (StepsFrom p dice calls (State.AtHeader p i))
    (fun k => ¬ StepsFrom p dice calls (State.AtClosing p i) k) calls.length

theorem has_started_apply (s : State) (call : HostCall) :
    (apply p s call).started.has i = true ↔
      ((∃ sel, call = .step sel) ∧ s.AtHeader p i) ∨
        s.started.has i = true ∧ ¬ ((∃ sel, call = .step sel) ∧ s.AtClosing p i) := by
  have other (hsame : (apply p s call).started = s.started) (hcall : ¬ ∃ sel, call = .step sel) :
      (apply p s call).started.has i = true ↔
        ((∃ sel, call = .step sel) ∧ s.AtHeader p i) ∨
          s.started.has i = true ∧ ¬ ((∃ sel, call = .step sel) ∧ s.AtClosing p i) := by
    simp only [hsame, hcall, false_and, false_or, not_false_eq_true, and_true]
  cases call with
  | step sel =>
    have hcall : ∃ sel', HostCall.step sel = .step sel' := ⟨sel, rfl⟩
    simp only [hcall, true_and]
    exact s.has_started_step p sel i
  | input line =>
    have hsame : (s.setInput line).started = s.started := by
      unfold State.setInput
      split <;> rfl
    exact other hsame (by simp)
  | key code => exact other rfl (by simp)
  | assign name v => exact other rfl (by simp)

theorem has_started_run (p : Program) (dice : Dice) (calls : List HostCall) (i : Nat) :
    (run p dice calls).started.has i = true ↔ Underway p dice calls i := by
  suffices hprefix : ∀ k ≤ calls.length,
      (run p dice (calls.take k)).started.has i = true ↔
        Since (StepsFrom p dice calls (State.AtHeader p i))
          (fun k => ¬ StepsFrom p dice calls (State.AtClosing p i) k) k by
    have hall := hprefix calls.length (Nat.le_refl _)
    rwa [List.take_length] at hall
  intro k hk
  induction k with
  | zero =>
    simp only [not_since_zero, iff_false]
    exact Bool.false_ne_true
  | succ k ih =>
    have hcall : calls[k]? = some calls[k] := List.getElem?_eq_getElem hk
    have hlast : run p dice (calls.take (k + 1)) =
        apply p (run p dice (calls.take k)) calls[k] := by
      simp only [run, List.take_add_one, hcall, Option.toList_some, List.foldl_append,
        List.foldl_cons, List.foldl_nil]
    have hstep (P : State → Prop) : StepsFrom p dice calls P k ↔
        (∃ sel, calls[k] = .step sel) ∧ P (run p dice (calls.take k)) := by
      simp only [StepsFrom, hcall, Option.some.injEq]
    rw [hlast, has_started_apply, since_succ, ← ih (Nat.le_of_succ_le hk), hstep, hstep]

/-- A header that is run sets the loop variable to the start value, unless it has been run before and
no End has closed the loop since. A loop that was left by a jump goes on where it was left. -/
theorem step_header {line : Nat} {var : String} {start stop step : Expr} (sel : Int)
    (hst : p.statements[i]? = some ⟨line, .forLoop var start stop step⟩)
    (hat : (run p dice calls).AtHeader p i) :
    (¬ Underway p dice calls i → (run p dice calls).step p sel =
        ((run p dice calls).begin var start).testBounds var stop step) ∧
      (Underway p dice calls i →
        (run p dice calls).step p sel = (run p dice calls).testBounds var stop step) := by
  rw [State.step_atHeader sel hst hat, ← has_started_run]
  constructor
  · intro hfresh
    rw [if_neg hfresh]
  · intro hunderway
    rw [if_pos hunderway]

end HostCall

/-- A loop that a jump leaves and another enters again, in a program without End. -/
def outAndIn : Program :=
  ⟨[⟨1, .label "A"⟩, ⟨2, .forLoop "I" (.name 2 "e") (.name 2 "Pi") (.number 2 1)⟩,
    ⟨3, .compute (.assign 3 (.name 3 "Pi") 3 "I")⟩, ⟨4, .goto "A"⟩], [("A", 0)]⟩

/-- The state in which the header is run for the first time. -/
def outAndInFirst : State := HostCall.run outAndIn ⟨fun _ => 0, 0⟩ [.step 0]

/-- The state in which the header is run for the second time. -/
def outAndInAgain : State := HostCall.run outAndIn ⟨fun _ => 0, 0⟩ (List.replicate 5 (.step 0))

theorem atHeader_outAndInFirst : outAndInFirst.AtHeader outAndIn 1 where
  awaiting := rfl
  choice := rfl
  running := rfl
  pc := rfl
  header := ⟨2, "I", .name 2 "e", .name 2 "Pi", .number 2 1, rfl⟩

theorem atHeader_outAndIn : outAndInAgain.AtHeader outAndIn 1 where
  awaiting := rfl
  choice := rfl
  running := rfl
  pc := rfl
  header := ⟨2, "I", .name 2 "e", .name 2 "Pi", .number 2 1, rfl⟩

/-- The first run of the header assigns the start value, the second one leaves the variable as it is. -/
theorem step_header_outAndIn :
    outAndIn.statements[1]? =
        some ⟨2, .forLoop "I" (.name 2 "e") (.name 2 "Pi") (.number 2 1)⟩ ∧
      outAndInFirst.AtHeader outAndIn 1 ∧
      outAndInFirst.step outAndIn 0 =
        (outAndInFirst.begin "I" (.name 2 "e")).testBounds "I" (.name 2 "Pi") (.number 2 1) ∧
      outAndInAgain.AtHeader outAndIn 1 ∧
      outAndInAgain.step outAndIn 0 = outAndInAgain.testBounds "I" (.name 2 "Pi") (.number 2 1) := by
  have hfresh : ¬ HostCall.Underway outAndIn ⟨fun _ => 0, 0⟩ [.step 0] 1 :=
    mt (HostCall.has_started_run outAndIn _ _ 1).mpr (by decide)
  have hunderway : HostCall.Underway outAndIn ⟨fun _ => 0, 0⟩ (List.replicate 5 (.step 0)) 1 :=
    (HostCall.has_started_run outAndIn _ _ 1).mp (by decide)
  exact ⟨rfl, atHeader_outAndInFirst, (HostCall.step_header 0 rfl atHeader_outAndInFirst).1 hfresh,
    atHeader_outAndIn, (HostCall.step_header 0 rfl atHeader_outAndIn).2 hunderway⟩

/-- A loop that is entered afresh need not start at its start value. The program has no End that could
lead back to the header, and yet the variable keeps the value that it had when the loop was left. -/
theorem outAndIn_keeps_variable :
    Program.compile "Lbl A\nFor(I,e,Pi)\nPi->I\nGoto A" = .ok outAndIn ∧
      (∀ st ∈ outAndIn.statements, st.command ≠ .endMark) ∧
      outAndInAgain.AtHeader outAndIn 1 ∧
      ((outAndInAgain.step outAndIn 0).state.memory.vars.get? "I").map Value.toNumber ≠
        some ((Expr.name 2 "e").eval outAndInAgain.memory).1.toNumber := by
  refine ⟨by cbv, ?_, atHeader_outAndIn, by decide⟩
  intro st hst
  simp only [outAndIn, List.mem_cons, List.not_mem_nil, or_false] at hst
  rcases hst with rfl | rfl | rfl | rfl <;> simp

end PocketBasic
