import PocketBasic.Calculator.Basic

/-!
# Calculators in step with their program

The calculator keeps a run mode and a screen mode beside the program that it runs. `InStep` says what
they tell about the program: what it waits for, and whether it has ended. A new calculator is in step,
and so is one that has loaded a program.
-/

namespace PocketBasic

inductive CalculatorCall where
  | load (name source : String)
  | tick
  | keyDown (code : String)
  | keyUp (code key : String)

namespace CalculatorCall

variable [Text.Typeface]

/-- The calculator after a call. A program with a fault is not loaded. -/
def apply (c : Calculator) : CalculatorCall → Calculator
  | .load name source => match c.load name source with
    | .ok c' => c'
    | .error _ => c
  | .tick => c.tick.2
  | .keyDown code => c.keyDown code
  | .keyUp code key => c.keyUp code key

def run (c : Calculator) (calls : List CalculatorCall) : Calculator := calls.foldl apply c

theorem run_kept {P : Calculator → Prop} (kept : ∀ c call, P c → P (apply c call)) {c : Calculator}
    (calls : List CalculatorCall) (h : P c) : P (run c calls) := by
  unfold run
  induction calls generalizing c with
  | nil => exact h
  | cons call calls ih => exact ih (kept c call h)

section Load

variable {c : Calculator} {name source : String}

theorem apply_load_ok {p : Program} (hp : Program.compile source = .ok p) :
    apply c (.load name source) = c.start name p := by
  simp only [apply, Calculator.load, hp, Except.map]

theorem apply_load_error {fault : Fault} (hp : Program.compile source = .error fault) :
    apply c (.load name source) = c := by
  simp only [apply, Calculator.load, hp, Except.map]

theorem load_kept {P : Calculator → Prop} (h : P c)
    (kept : ∀ p, Program.compile source = .ok p → P (c.start name p)) :
    P (apply c (.load name source)) := by
  cases hp : Program.compile source with
  | error fault =>
    rw [apply_load_error hp]
    exact h
  | ok p =>
    rw [apply_load_ok hp]
    exact kept p hp

end Load

end CalculatorCall

namespace Calculator

variable {c : Calculator} {r : Running}

section Kept

variable {P : Calculator → Prop}

theorem steps_kept [Text.Typeface] (kept : ∀ c r, P c → c.mode = .run → c.running = some r → P (c.step r))
    (h : P c) (n : Nat) : P (c.steps n).2 := by
  induction n generalizing c with
  | zero => exact h
  | succ n ih =>
    unfold steps
    split
    · next r hmode hr => exact ih (kept c r h hmode hr)
    · exact h

/-- What steps keep, a beat keeps too if it does not depend on the version. -/
theorem tick_kept [Text.Typeface] (hversion : ∀ c v, P c → P { c with version := v })
    (hsteps : P (c.steps c.stepsPerTick).2) : P c.tick.2 := by
  unfold tick
  split
  · next c' hs =>
    rw [hs] at hsteps
    exact hversion c' _ hsteps
  · next c' hs =>
    rw [hs] at hsteps
    exact hsteps

theorem released_eq (c : Calculator) (code : String) :
    ∃ held, (if code = c.held then { c with held := "" } else c) = { c with held := held } := by
  split
  · exact ⟨_, rfl⟩
  · exact ⟨_, rfl⟩

/-- With a program, the screen decides what a key does when it goes up. -/
theorem keyUp_of_running (hr : c.running = some r) (code key : String) :
    c.keyUp code key =
      let c₁ := { c with held := if code = c.held then "" else c.held }
      let c₂ := match c.screen with
        | .menu => c₁.menuKey code
        | .home => c₁.homeKey r code key
      { c₂ with version := c₂.version + 1 } := by
  have hreleased : (if code = c.held then { c with held := "" } else c) =
      { c with held := if code = c.held then "" else c.held } := by
    split <;> rfl
  unfold keyUp
  simp only [hreleased]
  split
  · next hnone => cases hr.symm.trans hnone
  · next r' hr' =>
    cases hr.symm.trans hr'
    rfl

/-- A key that goes up is a key of the menu or of the home screen. -/
theorem keyUp_kept {code key : String} (hversion : ∀ c v, P c → P { c with version := v })
    (hheld : ∀ held, P { c with held := held })
    (hmenu : ∀ c r, P c → c.running = some r → c.screen = .menu → P (c.menuKey code))
    (hhome : ∀ c r, P c → c.running = some r → c.screen = .home → P (c.homeKey r code key)) :
    P (c.keyUp code key) := by
  obtain ⟨held, he⟩ := released_eq c code
  unfold keyUp
  simp only [he]
  split
  · exact hheld held
  · next r hr =>
    apply hversion
    split
    · next hscreen => exact hmenu _ r (hheld held) hr hscreen
    · next hscreen => exact hhome _ r (hheld held) hr hscreen

end Kept

/-- Whether the program waits for a line of input. -/
def inputPending (c : Calculator) : Prop := ∃ r, c.running = some r ∧ r.state.isAwaiting = true

/-- Whether the program waits for the selection of a menu option. -/
def menuPending (c : Calculator) : Prop := ∃ r, c.running = some r ∧ r.state.choice.isSome = true

structure InStep (c : Calculator) : Prop where
  input : c.mode = .input ↔ c.inputPending
  menu : c.screen = .menu ↔ c.menuPending
  menuMode : c.screen = .menu → c.mode = .run ∨ c.mode = .pause
  line : c.input ≠ "" → c.mode = .input
  fault : c.fault ≠ none → c.mode = .done
  done : c.mode = .done → ∀ r, c.running = some r →
    r.state.hasMore r.program = false ∧ r.state.awaiting = none ∧ r.state.choice = none

theorem inStep_new (keys : KeyMap) (stepsPerTick : Int) (dice : Dice) :
    InStep (.new keys stepsPerTick dice) where
  input := by
    constructor
    · intro h
      cases h
    · rintro ⟨r, hr, -⟩
      cases hr
  menu := by
    constructor
    · intro h
      cases h
    · rintro ⟨r, hr, -⟩
      cases hr
  menuMode h := by cases h
  line h := absurd rfl h
  fault h := absurd rfl h
  done _ r hr := by cases hr

theorem inputPending_iff (hr : c.running = some r) : c.inputPending ↔ r.state.isAwaiting = true := by
  constructor
  · rintro ⟨r', hr', h⟩
    rw [hr] at hr'
    cases hr'
    exact h
  · intro h
    exact ⟨r, hr, h⟩

theorem menuPending_iff (hr : c.running = some r) :
    c.menuPending ↔ r.state.choice.isSome = true := by
  constructor
  · rintro ⟨r', hr', h⟩
    rw [hr] at hr'
    cases hr'
    exact h
  · intro h
    exact ⟨r, hr, h⟩

theorem InStep.congr {c' : Calculator} (h : InStep c) (hr : c'.running = c.running)
    (hmode : c'.mode = c.mode) (hscreen : c'.screen = c.screen) (hfault : c'.fault = c.fault)
    (hline : c'.input ≠ "" → c.mode = .input) : InStep c' where
  input := by
    unfold inputPending
    rw [hmode, hr]
    exact h.input
  menu := by
    unfold menuPending
    rw [hscreen, hr]
    exact h.menu
  menuMode := by
    rw [hscreen, hmode]
    exact h.menuMode
  line := by
    rw [hmode]
    exact hline
  fault := by
    rw [hfault, hmode]
    exact h.fault
  done := by
    rw [hmode, hr]
    exact h.done

/-- A calculator with a program is in step if the modes fit what the program waits for. -/
theorem inStep_of_running (hr : c.running = some r)
    (hinput : c.mode = .input ↔ r.state.isAwaiting = true)
    (hmenu : c.screen = .menu ↔ r.state.choice.isSome = true)
    (hmenuMode : c.screen = .menu → c.mode = .run ∨ c.mode = .pause)
    (hline : c.input ≠ "" → c.mode = .input) (hfault : c.fault ≠ none → c.mode = .done)
    (hdone : c.mode = .done → r.state.hasMore r.program = false ∧ r.state.awaiting = none ∧
      r.state.choice = none) : InStep c where
  input := by
    rw [inputPending_iff hr]
    exact hinput
  menu := by
    rw [menuPending_iff hr]
    exact hmenu
  menuMode := hmenuMode
  line := hline
  fault := hfault
  done hd r' hr' := by
    rw [hr] at hr'
    cases hr'
    exact hdone hd

theorem inStep_start [Text.Typeface] (c : Calculator) (name : String) (p : Program) :
    InStep (c.start name p) :=
  inStep_of_running rfl (by simp [start, State.isAwaiting, State.initial])
    (by simp [start, State.initial]) (by simp [start]) (by simp [start]) (by simp [start])
    (by simp [start])

theorem InStep.awaiting_eq_none (h : InStep c) (hr : c.running = some r) (hmode : c.mode ≠ .input) :
    r.state.awaiting = none := by
  have hnot : ¬ r.state.isAwaiting = true := by
    rw [← inputPending_iff hr, ← h.input]
    exact hmode
  exact Option.not_isSome_iff_eq_none.mp hnot

theorem InStep.choice_eq_none (h : InStep c) (hr : c.running = some r) (hscreen : c.screen = .home) :
    r.state.choice = none := by
  have hnot : ¬ r.state.choice.isSome = true := by
    rw [← menuPending_iff hr, ← h.menu, hscreen]
    simp
  exact Option.not_isSome_iff_eq_none.mp hnot

theorem InStep.input_eq (h : InStep c) (hmode : c.mode ≠ .input) : c.input = "" := by
  by_cases hi : c.input = ""
  · exact hi
  · exact absurd (h.line hi) hmode

theorem InStep.fault_eq_none (h : InStep c) (hmode : c.mode ≠ .done) : c.fault = none := by
  cases hf : c.fault with
  | none => rfl
  | some fault =>
    have hdone := h.fault (by simp [hf])
    exact absurd hdone hmode

end Calculator

end PocketBasic
