import PocketBasic.Proofs.Calculator.Hosting
import PocketBasic.Text.Cluster

/-!
# A menu never selects out of range

While a menu is open, the screen shows one label for each option of its statement and the highlight is on
one of them, however the arrows and the digits have moved it. Each fault that a calculator stores was
returned by a step of its program. So the only menu that refuses the selection is one that has no options.
-/

namespace PocketBasic

namespace Calculator

open CalculatorCall (run)

variable {c c' : Calculator} {r : Running} {choice : Choice} {fault : Fault} {line : Nat}

/-- In the course of the calls calculator `c'` takes a step of the program `r`. -/
structure TakesStep [Text.Typeface] (c : Calculator) (calls : List CalculatorCall) (c' : Calculator)
    (r : Running) : Prop where
  reached : ∃ before after n, calls = before ++ .tick :: after ∧
    n < (run c before).stepsPerTick ∧ c' = ((run c before).steps n).2
  mode : c'.mode = .run
  running : c'.running = some r

theorem TakesStep.later [Text.Typeface] {call : CalculatorCall} {calls : List CalculatorCall}
    (h : TakesStep (CalculatorCall.apply c call) calls c' r) : TakesStep c (call :: calls) c' r := by
  obtain ⟨before, after, n, rfl, hn, hc'⟩ := h.reached
  exact ⟨⟨call :: before, after, n, rfl, hn, hc'⟩, h.mode, h.running⟩

theorem TakesStep.followed [Text.Typeface] {calls : List CalculatorCall} (h : TakesStep c calls c' r)
    (more : List CalculatorCall) : TakesStep c (calls ++ more) c' r := by
  obtain ⟨before, after, n, rfl, hn, hc'⟩ := h.reached
  exact ⟨⟨before, after ++ more, n, by simp, hn, hc'⟩, h.mode, h.running⟩

theorem TakesStep.settled [Text.Typeface] {calls : List CalculatorCall} (h : TakesStep c calls c' r)
    (hc : Settled c) : Settled c' := by
  obtain ⟨before, after, n, -, -, rfl⟩ := h.reached
  exact (hc.run before).steps n

/-- A fault after a step was there before it, or it is the one that the step returns. -/
theorem fault_step [Text.Typeface] (h : (c.step r).fault = some fault) :
    c.fault = some fault ∨
      (r.state.step r.program c.menu.index).status = .halted (some fault) := by
  obtain ⟨home, menu, hstep⟩ := step_eq c r
  rw [hstep] at h
  generalize (r.state.step r.program c.menu.index).status = status at h
  cases status with
  | halted stored =>
    cases stored with
    | none => cases h
    | some stored =>
      cases h
      exact .inr rfl
  | _ => exact .inl h

theorem fault_steps [Text.Typeface] {n : Nat} (h : (c.steps n).2.fault = some fault) :
    c.fault = some fault ∨ ∃ k < n, ∃ r, (c.steps k).2.mode = .run ∧
      (c.steps k).2.running = some r ∧
      (r.state.step r.program (c.steps k).2.menu.index).status = .halted (some fault) := by
  induction n generalizing c with
  | zero => exact .inl h
  | succ n ih =>
    have hkeep (hidle : c.steps (n + 1) = (false, c)) : c.fault = some fault := by
      rw [hidle] at h
      exact h
    cases hmode : c.mode with
    | run =>
      cases hr : c.running with
      | none => exact .inl (hkeep (by simp only [steps, hmode, hr]))
      | some r =>
        have hnext (k : Nat) : (c.steps (k + 1)).2 = ((c.step r).steps k).2 := by
          simp only [steps, hmode, hr]
        rw [hnext] at h
        rcases ih h with hfirst | ⟨k, hk, r', hlater⟩
        · rcases fault_step hfirst with hold | hstatus
          · exact .inl hold
          · exact .inr ⟨0, Nat.succ_pos n, r, hmode, hr, hstatus⟩
        · refine .inr ⟨k + 1, Nat.succ_lt_succ hk, r', ?_⟩
          rw [hnext]
          exact hlater
    | _ => exact .inl (hkeep (by simp only [steps, hmode]))

theorem fault_apply [Text.Typeface] {call : CalculatorCall}
    (h : (CalculatorCall.apply c call).fault = some fault) :
    c.fault = some fault ∨ ∃ c' r, TakesStep c [call] c' r ∧
      (r.state.step r.program c'.menu.index).status = .halted (some fault) := by
  cases call with
  | load name source =>
    left
    cases hp : Program.compile source with
    | error _ =>
      rw [CalculatorCall.apply_load_error hp] at h
      exact h
    | ok p =>
      have hnone : (c.start name p).fault = none := rfl
      rw [CalculatorCall.apply_load_ok hp, hnone] at h
      cases h
  | tick =>
    have hbeat : c.tick.2.fault = (c.steps c.stepsPerTick).2.fault :=
      tick_kept (P := fun c' => c'.fault = (c.steps c.stepsPerTick).2.fault) (fun _ _ h => h) rfl
    rcases fault_steps (hbeat.symm.trans h) with hold | ⟨k, hk, r, hmode, hr, hstatus⟩
    · exact .inl hold
    · exact .inr ⟨(c.steps k).2, r, ⟨⟨[], [], k, rfl, hk, rfl⟩, hmode, hr⟩, hstatus⟩
  | keyDown code =>
    obtain ⟨held, version, menu, input, hdown⟩ := keyDown_frame c code
    rw [CalculatorCall.apply, hdown] at h
    exact .inl h
  | keyUp code key =>
    have hup : (c.keyUp code key).fault = c.fault := by
      refine keyUp_kept (P := fun c' => c'.fault = c.fault) (fun _ _ h => h) (fun _ => rfl)
        (fun c' _ h _ _ => ?_) (fun c' r h _ _ => ?_)
      · obtain ⟨mode, menu, hkey⟩ := menuKey_frame c' code
        rw [hkey]
        exact h
      · obtain ⟨state, mode, input, hkey⟩ := homeKey_frame c' r code key
        rw [hkey]
        exact h
    exact .inl (hup.symm.trans h)

/-- A stored fault was returned by a step that the clock has taken. -/
theorem fault_run [Text.Typeface] {calls : List CalculatorCall} (h : (run c calls).fault = some fault) :
    c.fault = some fault ∨ ∃ c' r, TakesStep c calls c' r ∧
      (r.state.step r.program c'.menu.index).status = .halted (some fault) := by
  induction calls generalizing c with
  | nil => exact .inl h
  | cons call calls ih =>
    rcases ih h with hfirst | ⟨c', r, hlater, hstatus⟩
    · rcases fault_apply hfirst with hold | ⟨c', r, htakes, hstatus⟩
      · exact .inl hold
      · exact .inr ⟨c', r, htakes.followed calls, hstatus⟩
    · exact .inr ⟨c', r, hlater.later, hstatus⟩

/-- The open menu is the statement that the program stands at, and the screen shows its options with one
of them highlighted if there is any. -/
structure ShowsMenu (c : Calculator) (r : Running) (choice : Choice) : Prop where
  statement : ∃ title,
    r.program.statements[r.state.pc]? = some ⟨choice.line, .menu title choice.options⟩
  labels : c.menu.labels.length = choice.options.length
  index : 1 ≤ choice.options.length → c.menu.index < choice.options.length

theorem Settled.showsMenu (h : Settled c) (hr : c.running = some r)
    (hchoice : r.state.choice = some choice) : ShowsMenu c r choice where
  statement := (h.driven.sound hr).choice choice hchoice
  labels := h.highlights.labels r choice hr hchoice
  index hpos := by
    have hlabels := h.highlights.labels r choice hr hchoice
    have hindex : c.menu.index ≤ c.menu.labels.length - 1 := h.highlights.index
    omega

/-- A selection is refused by a menu without options, and by no other. -/
theorem Settled.refused_iff (h : Settled c) (hmode : c.mode = .run) (hr : c.running = some r) :
    (r.state.step r.program c.menu.index).status = .halted (some (.menuSelection line)) ↔
      r.state.choice = some ⟨line, []⟩ := by
  constructor
  · intro hrefused
    obtain ⟨hcause, -⟩ := State.failed_of_status hrefused
    cases hcause with
    | @selection choice hchoice hout =>
      obtain ⟨line, options⟩ := choice
      have hindex := (h.showsMenu hr hchoice).index
      have hnone : options = [] := by
        rw [← List.length_eq_zero_iff]
        simp only at hindex hout
        omega
      rw [hchoice, hnone]
  · intro hchoice
    have hwait : r.state.awaiting = none := h.inStep.awaiting_eq_none hr (by simp [hmode])
    have hout : (List.length ([] : List MenuOption) : Int) ≤ c.menu.index := Int.natCast_nonneg _
    exact State.step_menuSelection hwait hchoice (.inr hout)

/-- Whatever is loaded, however the clock beats and whichever keys go down and up: an open menu is shown
with its options and a highlight in their range. A step of the clock is refused by a menu exactly if the
menu has no options, and if the calculator ends with such a refusal, then one of its steps has come
to such a menu. -/
theorem selection_in_range [Text.Typeface] (keys : KeyMap) (stepsPerTick : Int) (dice : Dice)
    (calls : List CalculatorCall) :
    let c := run (.new keys stepsPerTick dice) calls
    (∀ r choice, c.running = some r → r.state.choice = some choice → ShowsMenu c r choice) ∧
      (∀ c' r line, TakesStep (.new keys stepsPerTick dice) calls c' r →
        ((r.state.step r.program c'.menu.index).status = .halted (some (.menuSelection line)) ↔
          r.state.choice = some ⟨line, []⟩)) ∧
      ∀ line, c.fault = some (.menuSelection line) →
        ∃ c' r, TakesStep (.new keys stepsPerTick dice) calls c' r ∧
          (r.state.step r.program c'.menu.index).status = .halted (some (.menuSelection line)) ∧
          ShowsMenu c' r ⟨line, []⟩ := by
  intro c
  have hnew : Settled (.new keys stepsPerTick dice) := settled_new keys stepsPerTick dice
  have hrefused (c' : Calculator) (r : Running) (line : Nat)
      (h : TakesStep (.new keys stepsPerTick dice) calls c' r) :
      (r.state.step r.program c'.menu.index).status = .halted (some (.menuSelection line)) ↔
        r.state.choice = some ⟨line, []⟩ :=
    (h.settled hnew).refused_iff h.mode h.running
  refine ⟨fun r choice hr hchoice => ?_, hrefused, fun line hfault => ?_⟩
  · exact (hnew.run calls).showsMenu hr hchoice
  · rcases fault_run hfault with hstart | ⟨c', r, htakes, hstatus⟩
    · cases hstart
    · have hchoice := (hrefused c' r line htakes).mp hstatus
      exact ⟨c', r, htakes, hstatus, (htakes.settled hnew).showsMenu htakes.running hchoice⟩

end Calculator

def bare : Program := ⟨[⟨1, .menu (.text 1 "") []⟩], []⟩

theorem compile_bare : Program.compile "Menu(\"\")" = .ok bare := by
  cbv

/-- The menu is opened, confirmed, and asked for its selection. -/
def bareCalls : List CalculatorCall := [.load "" "Menu(\"\")", .tick, .keyUp "Enter" "", .tick]

theorem run_bare :
    CalculatorCall.run (.new ⟨[]⟩ 1 ⟨fun _ => 0, 0⟩) bareCalls =
      ((Calculator.start (.new ⟨[]⟩ 1 ⟨fun _ => 0, 0⟩) "" bare).tick.2.keyUp "Enter" "").tick.2 := by
  simp only [CalculatorCall.run, bareCalls, List.foldl_cons, List.foldl_nil, CalculatorCall.apply,
    Calculator.load, compile_bare, Except.map]

theorem fault_bare :
    (CalculatorCall.run (.new ⟨[]⟩ 1 ⟨fun _ => 0, 0⟩) bareCalls).fault = some (.menuSelection 1) := by
  rw [run_bare]
  rfl

/-- There is such a menu, and it refuses the selection. -/
theorem selection_in_range_bare :
    (CalculatorCall.run (.new ⟨[]⟩ 1 ⟨fun _ => 0, 0⟩) bareCalls).fault = some (.menuSelection 1) ∧
      ∃ c' r, Calculator.TakesStep (.new ⟨[]⟩ 1 ⟨fun _ => 0, 0⟩) bareCalls c' r ∧
        Calculator.ShowsMenu c' r ⟨1, []⟩ := by
  obtain ⟨-, -, hrefused⟩ := Calculator.selection_in_range ⟨[]⟩ 1 ⟨fun _ => 0, 0⟩ bareCalls
  obtain ⟨c', r, htakes, -, hshows⟩ := hrefused 1 fault_bare
  exact ⟨fault_bare, c', r, htakes, hshows⟩

end PocketBasic
