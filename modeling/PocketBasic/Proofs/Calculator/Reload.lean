import PocketBasic.Calculator.Snapshot
import PocketBasic.Proofs.Calculator.Selection
import PocketBasic.Proofs.Machine.Lockstep
import PocketBasic.Text.Cluster

/-!
# A load forgets the past

A program that is loaded finds cleared screens, an empty line and no key held down, whatever went before.
All that it inherits is what is left of the random numbers. So the calculator goes on like a new one that
draws the same numbers: the two stay abreast, whatever happens to both.
-/

namespace PocketBasic

def Dice.SameDraws (d e : Dice) : Prop := ∀ n, d.draw (d.used + n) = e.draw (e.used + n)

theorem Dice.SameDraws.roll {d e : Dice} (h : d.SameDraws e) :
    d.roll.1 = e.roll.1 ∧ d.roll.2.SameDraws e.roll.2 := by
  refine ⟨h 0, fun n => ?_⟩
  have hnext := h (1 + n)
  rwa [← Nat.add_assoc, ← Nat.add_assoc] at hnext

/-- The same variables, the same key, and the same numbers still to be drawn. -/
structure Memory.Redrawn (m n : Memory) : Prop where
  vars : m.vars = n.vars
  key : m.key = n.key
  dice : m.dice.SameDraws n.dice

namespace Memory

variable {m n : Memory}

theorem Redrawn.set (h : m.Redrawn n) (name : String) (v : Value) :
    (m.set name v).Redrawn (n.set name v) :=
  ⟨congrArg (·.set name v) h.vars, h.key, h.dice⟩

theorem redrawn_lookup (h : m.Redrawn n) (name : String) :
    SameResult Redrawn (m.lookup name) (n.lookup name) := by
  simp only [lookup, h.vars, h.key]
  split
  · exact ⟨rfl, rfl, rfl, h.dice⟩
  · split
    · exact ⟨rfl, h⟩
    · exact ⟨rfl, h.set name (.number 0)⟩

/-- A program cannot tell from which position of which sequence its numbers are drawn. -/
theorem indistinct_redrawn : Indistinct Redrawn where
  lookup := redrawn_lookup
  roll h := ⟨h.dice.roll.1, h.vars, h.key, h.dice.roll.2⟩
  set := Redrawn.set
  press h _ := ⟨h.vars, rfl, h.dice⟩

end Memory

namespace Calculator

open CalculatorCall (run)

variable {c d : Calculator}

structure SameOptions (c d : Calculator) : Prop where
  keys : c.keys = d.keys
  rate : c.stepsPerTick = d.stepsPerTick

theorem SameOptions.trans {b : Calculator} (h : SameOptions b c) (h' : SameOptions c d) :
    SameOptions b d :=
  ⟨h.keys.trans h'.keys, h.rate.trans h'.rate⟩

theorem sameOptions_step [Text.Typeface] (c : Calculator) (r : Running) : SameOptions (c.step r) c := by
  obtain ⟨home, menu, hstep⟩ := step_eq c r
  rw [hstep]
  cases (r.state.step r.program c.menu.index).status <;> exact ⟨rfl, rfl⟩

theorem sameOptions_apply [Text.Typeface] (c : Calculator) (call : CalculatorCall) :
    SameOptions (CalculatorCall.apply c call) c := by
  have hself : SameOptions c c := ⟨rfl, rfl⟩
  cases call with
  | load name source =>
    exact CalculatorCall.load_kept (P := (SameOptions · c)) hself fun _ _ => ⟨rfl, rfl⟩
  | tick =>
    refine tick_kept (P := (SameOptions · c)) (fun _ _ h => ⟨h.keys, h.rate⟩) ?_
    exact steps_kept (P := (SameOptions · c)) (fun c' r h _ _ => (sameOptions_step c' r).trans h) hself _
  | keyDown code =>
    obtain ⟨held, version, menu, input, hdown⟩ := keyDown_frame c code
    rw [CalculatorCall.apply, hdown]
    exact ⟨rfl, rfl⟩
  | keyUp code key =>
    refine keyUp_kept (P := (SameOptions · c)) (fun _ _ h => ⟨h.keys, h.rate⟩) (fun _ => ⟨rfl, rfl⟩)
      (fun c' _ h _ _ => ?_) (fun c' r h _ _ => ?_)
    · obtain ⟨mode, menu, hkey⟩ := menuKey_frame c' code
      rw [hkey]
      exact ⟨h.keys, h.rate⟩
    · obtain ⟨state, mode, input, hkey⟩ := homeKey_frame c' r code key
      rw [hkey]
      exact ⟨h.keys, h.rate⟩

theorem sameOptions_run [Text.Typeface] (c : Calculator) (calls : List CalculatorCall) :
    SameOptions (run c calls) c :=
  CalculatorCall.run_kept (P := (SameOptions · c)) (fun c' call h => (sameOptions_apply c' call).trans h)
    calls ⟨rfl, rfl⟩

/-- The calculator with another program, another version and other dice of its own. -/
def hide (c : Calculator) (r : Running) (version : Nat) (dice : Dice) : Calculator :=
  { c with running := some r, version := version, dice := dice }

section Hide

variable (c : Calculator) (r : Running) (version : Nat) (dice : Dice)

@[simp] theorem hide_running : (c.hide r version dice).running = some r := rfl

@[simp] theorem hide_keys : (c.hide r version dice).keys = c.keys := rfl

@[simp] theorem hide_menu : (c.hide r version dice).menu = c.menu := rfl

@[simp] theorem hide_mode : (c.hide r version dice).mode = c.mode := rfl

@[simp] theorem hide_screen : (c.hide r version dice).screen = c.screen := rfl

@[simp] theorem hide_input : (c.hide r version dice).input = c.input := rfl

@[simp] theorem hide_held : (c.hide r version dice).held = c.held := rfl

theorem perform_hide [Text.Typeface] (s : Signal) :
    (c.hide r version dice).perform s = (c.perform s).hide r version dice := by
  cases s <;> rfl

theorem foldl_perform_hide [Text.Typeface] (signals : List Signal) :
    signals.foldl perform (c.hide r version dice) = (signals.foldl perform c).hide r version dice := by
  induction signals generalizing c with
  | nil => rfl
  | cons s signals ih => rw [List.foldl_cons, List.foldl_cons, perform_hide, ih]

theorem enter_hide (status : Status) :
    (c.hide r version dice).enter status = (c.enter status).hide r version dice := by
  cases status <;> rfl

end Hide

/-- Both run the same program, side by side, and they differ in nothing but this, their versions and the
dice of their own, which a calculator that runs a program does not use. -/
def Abreast (c d : Calculator) : Prop :=
  ∃ r t version dice, c.running = some r ∧ r.state.Beside Memory.Redrawn t ∧
    d = c.hide ⟨r.program, t⟩ version dice

theorem Abreast.sameOptions (h : Abreast c d) : SameOptions c d := by
  obtain ⟨r, t, version, dice, -, -, rfl⟩ := h
  exact ⟨rfl, rfl⟩

section Abreast

variable {r : Running} {t : State}

theorem abreast_step [Text.Typeface] (c : Calculator) (ht : r.state.Beside Memory.Redrawn t) (version : Nat)
    (dice : Dice) :
    Abreast (c.step r) ((c.hide ⟨r.program, t⟩ version dice).step ⟨r.program, t⟩) := by
  let o := r.state.step r.program c.menu.index
  let o' := t.step r.program c.menu.index
  have ho : o.Beside Memory.Redrawn o' :=
    State.beside_step Memory.indistinct_redrawn ht r.program c.menu.index
  have hstep : (c.hide ⟨r.program, t⟩ version dice).step ⟨r.program, t⟩ =
      enter (o'.signals.foldl perform
        (hide { c with running := some ⟨r.program, o.state⟩ } ⟨r.program, o'.state⟩ version dice))
        o'.status := rfl
  rw [hstep, foldl_perform_hide, enter_hide, ← ho.signals, ← ho.status]
  exact ⟨_, o'.state, version, dice, running_step c r, ho.state, rfl⟩

theorem Abreast.steps [Text.Typeface] (h : Abreast c d) (n : Nat) :
    (c.steps n).1 = (d.steps n).1 ∧ Abreast (c.steps n).2 (d.steps n).2 := by
  induction n generalizing c d with
  | zero => exact ⟨rfl, h⟩
  | succ n ih =>
    obtain ⟨r, t, version, dice, hr, ht, rfl⟩ := h
    unfold Calculator.steps
    rw [hide_mode, hide_running, hr]
    -- The mode is the same, so both take a step or neither does.
    cases c.mode with
    | run => exact ⟨rfl, (ih (abreast_step c ht version dice)).2⟩
    | _ => exact ⟨rfl, r, t, version, dice, hr, ht, rfl⟩

theorem Abreast.withVersion (h : Abreast c d) (v w : Nat) :
    Abreast { c with version := v } { d with version := w } := by
  obtain ⟨r, t, -, dice, hr, ht, rfl⟩ := h
  exact ⟨r, t, w, dice, hr, ht, rfl⟩

theorem Abreast.tick [Text.Typeface] (h : Abreast c d) : c.tick.1 = d.tick.1 ∧ Abreast c.tick.2 d.tick.2 := by
  have hrate := h.sameOptions.rate
  obtain ⟨hstepped, hnext⟩ := h.steps c.stepsPerTick
  unfold Calculator.tick
  rw [← hrate]
  generalize c.steps c.stepsPerTick = a at hstepped hnext ⊢
  generalize d.steps c.stepsPerTick = b at hstepped hnext ⊢
  obtain ⟨stepped, c'⟩ := a
  obtain ⟨stepped', d'⟩ := b
  cases hstepped
  cases stepped with
  | true => exact ⟨rfl, hnext.withVersion _ _⟩
  | false => exact ⟨rfl, hnext⟩

theorem Abreast.keyDown (h : Abreast c d) (code : String) :
    Abreast (c.keyDown code) (d.keyDown code) := by
  obtain ⟨r, t, version, dice, hr, ht, rfl⟩ := h
  unfold Calculator.keyDown
  rw [hide_held, hide_screen]
  split
  · exact ⟨r, t, version, dice, hr, ht, rfl⟩
  · split
    · split
      · exact ⟨r, t, version + 1, dice, hr, ht, rfl⟩
      · split <;> exact ⟨r, t, version + 1, dice, hr, ht, rfl⟩
    · split <;> exact ⟨r, t, version + 1, dice, hr, ht, rfl⟩

theorem abreast_menuKey (c : Calculator) (hr : c.running = some r)
    (ht : r.state.Beside Memory.Redrawn t) (version : Nat) (dice : Dice) (code : String) :
    Abreast (c.menuKey code) ((c.hide ⟨r.program, t⟩ version dice).menuKey code) := by
  unfold menuKey
  rw [hide_menu]
  split
  · exact ⟨r, t, version, dice, hr, ht, rfl⟩
  · split
    · split <;> exact ⟨r, t, version, dice, hr, ht, rfl⟩
    · exact ⟨r, t, version, dice, hr, ht, rfl⟩

theorem abreast_homeKey (c : Calculator) (ht : r.state.Beside Memory.Redrawn t) (version : Nat)
    (dice : Dice) (code key : String) :
    Abreast (c.homeKey r code key)
      ((c.hide ⟨r.program, t⟩ version dice).homeKey ⟨r.program, t⟩ code key) := by
  unfold homeKey
  rw [hide_keys, hide_mode, hide_input]
  dsimp only
  -- The key register is set first, if the key has a number, and then the line is handed over.
  cases c.keys.get? code with
  | some n =>
    have hkey := State.Beside.setKey Memory.indistinct_redrawn ht n
    split
    · exact ⟨_, _, version, dice, rfl, State.Beside.setInput Memory.indistinct_redrawn hkey _, rfl⟩
    · exact ⟨_, _, version, dice, rfl, hkey, rfl⟩
  | none =>
    split
    · exact ⟨_, _, version, dice, rfl, State.Beside.setInput Memory.indistinct_redrawn ht _, rfl⟩
    · exact ⟨_, _, version, dice, rfl, ht, rfl⟩

theorem Abreast.keyUp (h : Abreast c d) (code key : String) :
    Abreast (c.keyUp code key) (d.keyUp code key) := by
  obtain ⟨r, t, version, dice, hr, ht, rfl⟩ := h
  let released : Calculator := { c with held := if code = c.held then "" else c.held }
  rw [keyUp_of_running hr, keyUp_of_running (hide_running ..), hide_screen]
  apply Abreast.withVersion
  split
  · exact abreast_menuKey released hr ht version dice code
  · exact abreast_homeKey released ht version dice code key

theorem Abreast.sameDraws (h : Abreast c d) : c.remainingDice.SameDraws d.remainingDice := by
  obtain ⟨r, t, version, dice, hr, ⟨m, hm, rfl⟩, rfl⟩ := h
  have hdice : c.remainingDice = r.state.memory.dice := by
    rw [remainingDice, hr]
  rw [hdice]
  exact hm.dice

theorem abreast_start [Text.Typeface] (hoptions : SameOptions c d)
    (hdice : c.remainingDice.SameDraws d.remainingDice) (name : String) (p : Program) :
    Abreast (c.start name p) (d.start name p) := by
  refine ⟨⟨p, .initial c.remainingDice⟩, .initial d.remainingDice, d.version + 1, d.dice, rfl, ?_, ?_⟩
  · exact ⟨.initial d.remainingDice, ⟨rfl, rfl, hdice⟩, rfl⟩
  · simp only [start, hide, hoptions.keys, hoptions.rate]

theorem Abreast.apply [Text.Typeface] (h : Abreast c d) (call : CalculatorCall) :
    Abreast (CalculatorCall.apply c call) (CalculatorCall.apply d call) := by
  cases call with
  | load name source =>
    cases hp : Program.compile source with
    | error fault =>
      rw [CalculatorCall.apply_load_error hp, CalculatorCall.apply_load_error hp]
      exact h
    | ok p =>
      rw [CalculatorCall.apply_load_ok hp, CalculatorCall.apply_load_ok hp]
      exact abreast_start h.sameOptions h.sameDraws name p
  | tick => exact h.tick.2
  | keyDown code => exact h.keyDown code
  | keyUp code key => exact h.keyUp code key

theorem Abreast.run [Text.Typeface] (h : Abreast c d) (calls : List CalculatorCall) :
    Abreast (run c calls) (run d calls) := by
  induction calls generalizing c d with
  | nil => exact h
  | cons call calls ih => exact ih (h.apply call)

/-- Both show the same, the version apart, and the next beat finds a step to take in both or in neither. -/
structure ShowsSame [Text.Typeface] (c d : Calculator) : Prop where
  mode : c.mode = d.mode
  screen : c.screen = d.screen
  fault : c.fault = d.fault
  frame : c.snapshot = { d.snapshot with version := c.version }
  stepped : c.tick.1 = d.tick.1

theorem Abreast.showsSame [Text.Typeface] (h : Abreast c d) : ShowsSame c d := by
  have hstepped := h.tick.1
  obtain ⟨r, t, version, dice, hr, ht, rfl⟩ := h
  exact ⟨rfl, rfl, rfl, rfl, hstepped⟩

end Abreast

/-- Whatever has happened to a calculator: a program with a fault is refused with that fault and changes
nothing. Any other program starts afresh. After any further calls the calculator shows the same as a
new one on which only this load was made, if the new one draws the random numbers that were left. -/
theorem load_forgets [Text.Typeface] (keys : KeyMap) (stepsPerTick : Int) (dice : Dice)
    (calls : List CalculatorCall) (name source : String) :
    let c := run (.new keys stepsPerTick dice) calls
    (∀ fault, Program.compile source = .error fault →
        c.load name source = .error fault ∧ CalculatorCall.apply c (.load name source) = c) ∧
      ∀ p, Program.compile source = .ok p →
        c.load name source = .ok (c.start name p) ∧
          ∀ dice', c.remainingDice.SameDraws dice' → ∀ later,
            ShowsSame (run c (.load name source :: later))
              (run (.new keys stepsPerTick dice') (.load name source :: later)) := by
  intro c
  have hload (d : Calculator) (p : Program) (hp : Program.compile source = .ok p) :
      d.load name source = .ok (d.start name p) := by
    simp only [load, hp, Except.map]
  refine ⟨fun fault hp => ⟨?_, CalculatorCall.apply_load_error hp⟩, fun p hp => ⟨hload c p hp, ?_⟩⟩
  · simp only [load, hp, Except.map]
  · intro dice' hdice later
    -- Of the history, only the options and the numbers not yet drawn are left after the start.
    have hoptions : SameOptions c (.new keys stepsPerTick dice) :=
      sameOptions_run (.new keys stepsPerTick dice) calls
    have hsame : SameOptions c (.new keys stepsPerTick dice') := ⟨hoptions.keys, hoptions.rate⟩
    have hstart := abreast_start hsame hdice name p
    rw [← CalculatorCall.apply_load_ok hp, ← CalculatorCall.apply_load_ok hp] at hstart
    exact (hstart.run later).showsSame

end Calculator

theorem compile_twice :
    Program.compile "Lbl A\nLbl A" = .error (.duplicateLabel 2 "A") := by
  cbv

/-- A calculator that has stored a fault refuses a program, and runs another one as if it were new. -/
theorem load_forgets_fault :
    let c := CalculatorCall.run (.new ⟨[]⟩ 1 ⟨fun _ => 0, 0⟩) bareCalls
    c.fault = some (.menuSelection 1) ∧
      CalculatorCall.apply c (.load "" "Lbl A\nLbl A") = c ∧
      Calculator.ShowsSame (CalculatorCall.run c [.load "" "Menu(\"\")", .tick])
        (CalculatorCall.run (.new ⟨[]⟩ 1 ⟨fun _ => 0, 0⟩) [.load "" "Menu(\"\")", .tick]) := by
  intro c
  have hdice : c.remainingDice.SameDraws ⟨fun _ => 0, 0⟩ := by
    simp only [c, run_bare]
    exact fun _ => rfl
  obtain ⟨hrefused, -⟩ :=
    Calculator.load_forgets ⟨[]⟩ 1 ⟨fun _ => 0, 0⟩ bareCalls "" "Lbl A\nLbl A"
  obtain ⟨-, hstarted⟩ := Calculator.load_forgets ⟨[]⟩ 1 ⟨fun _ => 0, 0⟩ bareCalls "" "Menu(\"\")"
  exact ⟨fault_bare, (hrefused _ compile_twice).2, (hstarted _ compile_bare).2 _ hdice [.tick]⟩

end PocketBasic
