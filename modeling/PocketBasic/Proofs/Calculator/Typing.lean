import PocketBasic.Proofs.Calculator.Confirmed
import PocketBasic.Proofs.Calculator.Version
import PocketBasic.Text.Cluster

/-!
# Typing a line

While a program waits for input, a character is typed when its key goes up and the last one is taken back
when Backspace goes down. Repeats of the held key count for nothing. `Typing` follows the line from call to
call, and Enter hands over the line that it has come to.
-/

namespace PocketBasic

/-- The line that is typed and the key that is held down. -/
structure Typing where
  held : String
  line : String
deriving DecidableEq, Repr

namespace Typing

/-- A key goes up and types its character, if it has one. -/
def release (t : Typing) (code key : String) : Typing where
  held := if code = t.held then "" else t.held
  line := if key.length = 1 then t.line ++ key else t.line

/-- A key goes down, and Backspace takes the last character back. A repeat of the held key does nothing. -/
def press (t : Typing) (code : String) : Typing :=
  if code = t.held then t
  else ⟨code, if code = "Backspace" then String.ofList t.line.toList.dropLast else t.line⟩

def next (t : Typing) : CalculatorCall → Typing
  | .keyDown code => t.press code
  | .keyUp code key => t.release code key
  | .load .. | .tick => t

def after (t : Typing) (calls : List CalculatorCall) : Typing := calls.foldl next t

end Typing

namespace CalculatorCall

/-- The call lets the line be typed on: no program is loaded, and Enter does not go up. -/
def TypesOn : CalculatorCall → Prop
  | .keyUp code _ => Calculator.isEnter code = false
  | .load .. => False
  | .keyDown _ | .tick => True

end CalculatorCall

namespace Calculator

open CalculatorCall (run)

variable {c : Calculator} {r : Running} {t : Typing} {x : String}

/-- The calculator waits for input, with a line and a key that is held down. -/
def typed (c : Calculator) (r : Running) (t : Typing) (number : Int) (version : Nat) : Calculator :=
  { c with
    running := some ⟨r.program, r.state.setKey number⟩
    mode := .input
    screen := .home
    input := t.line
    held := t.held
    version := version }

/-- The calculator is where it was, but for what has been typed. -/
def HasTyped (c : Calculator) (r : Running) (t : Typing) (c' : Calculator) : Prop :=
  ∃ number version, c' = c.typed r t number version

/-- The number that stands in the key register when a key has gone up. -/
def numberAfter (c : Calculator) (number : Int) (code : String) : Int :=
  (c.keys.get? code).getD number

/-- On the home screen, a key that goes up sets the register, types its character, and then may be Enter. -/
theorem homeKey_told (c : Calculator) (r : Running) (code key : String) :
    c.homeKey r code key =
      let s := r.state.setKey (c.numberAfter r.state.memory.key code)
      let line := if c.mode = .input ∧ key.length = 1 then c.input ++ key else c.input
      if isEnter code ∧ (c.mode = .pause ∨ c.mode = .input) then
        { c with running := some ⟨r.program, s.setInput line⟩, input := "", mode := .run }
      else { c with running := some ⟨r.program, s⟩, input := line } := by
  unfold homeKey numberAfter
  cases c.keys.get? code <;> rfl

section Input

theorem hasTyped_self (hr : c.running = some r) (hmode : c.mode = .input) (hscreen : c.screen = .home) :
    HasTyped c r ⟨c.held, c.input⟩ c := by
  refine ⟨r.state.memory.key, c.version, ?_⟩
  have hsame : some (Running.mk r.program (r.state.setKey r.state.memory.key)) = c.running := hr.symm
  rw [typed, hsame, ← hmode, ← hscreen]

theorem keyDown_typed (number : Int) (version : Nat) (code : String) :
    HasTyped c r (t.press code) ((c.typed r t number version).keyDown code) := by
  have hheld : (c.typed r t number version).held = t.held := rfl
  have hscreen : (c.typed r t number version).screen = .home := rfl
  unfold keyDown Typing.press
  rw [hheld, hscreen]
  split
  · exact ⟨number, version, rfl⟩
  · split <;> exact ⟨number, version + 1, rfl⟩

/-- What a key does when it goes up, all in one. Enter leaves input mode, and other keys stay in it. -/
theorem keyUp_typed (number : Int) (version : Nat) (code key : String) :
    (c.typed r t number version).keyUp code key =
      let t' := t.release code key
      let number' := c.numberAfter number code
      if isEnter code then
        { c.typed r ⟨t'.held, ""⟩ number' (version + 1) with
          running := some ⟨r.program, (r.state.setKey number').setInput t'.line⟩
          mode := .run }
      else c.typed r t' number' (version + 1) := by
  have hrunning : (c.typed r t number version).running = some ⟨r.program, r.state.setKey number⟩ := rfl
  have hscreen : (c.typed r t number version).screen = .home := rfl
  have hmode : (c.typed r t number version).mode = .input := rfl
  rw [keyUp_of_running hrunning, hscreen]
  simp only [homeKey_told, hmode, true_and, or_true, and_true]
  split <;> rfl

theorem HasTyped.apply [Text.Typeface] {c' : Calculator} {call : CalculatorCall} (h : HasTyped c r t c')
    (hcall : call.TypesOn) : HasTyped c r (t.next call) (CalculatorCall.apply c' call) := by
  obtain ⟨number, version, rfl⟩ := h
  cases call with
  | load name source => exact hcall.elim
  | tick =>
    have hmode : (c.typed r t number version).mode ≠ .run := by
      simp [typed]
    rw [CalculatorCall.apply, tick_of_not_run hmode]
    exact ⟨number, version, rfl⟩
  | keyDown code => exact keyDown_typed number version code
  | keyUp code key =>
    have henter : isEnter code = false := hcall
    rw [CalculatorCall.apply, keyUp_typed]
    simp only [henter]
    exact ⟨_, _, rfl⟩

theorem HasTyped.run [Text.Typeface] {c' : Calculator} {calls : List CalculatorCall} (h : HasTyped c r t c')
    (hcalls : ∀ call ∈ calls, call.TypesOn) :
    HasTyped c r (t.after calls) (CalculatorCall.run c' calls) := by
  induction calls generalizing c' t with
  | nil => exact h
  | cons call calls ih =>
    have hnext := h.apply (hcalls call List.mem_cons_self)
    exact ih hnext fun call' hmem => hcalls call' (List.mem_cons_of_mem call hmem)

end Input

/-- The program is to go on, and since it stood at `s` only its key register has been touched. -/
structure Ready (p : Program) (s : State) (c : Calculator) : Prop where
  mode : c.mode = .run
  screen : c.screen = .home
  running : ∃ number, c.running = some ⟨p, s.setKey number⟩

section Ready

variable {p : Program} {s : State}

theorem Ready.apply [Text.Typeface] {call : CalculatorCall} (h : Ready p s c) (hcall : call.IsKey) :
    Ready p s (CalculatorCall.apply c call) := by
  obtain ⟨hmode, hscreen, number, hr⟩ := h
  cases call with
  | load name source => exact hcall.elim
  | tick => exact hcall.elim
  | keyDown code =>
    obtain ⟨held, version, menu, input, hdown⟩ := keyDown_frame c code
    rw [CalculatorCall.apply, hdown]
    exact ⟨hmode, hscreen, number, hr⟩
  | keyUp code key =>
    rw [CalculatorCall.apply, keyUp_of_running hr, hscreen]
    simp only [homeKey_told, hmode, reduceCtorEq, or_self, and_false, if_false]
    exact ⟨rfl, rfl, _, rfl⟩

theorem Ready.run [Text.Typeface] {calls : List CalculatorCall} (h : Ready p s c)
    (hcalls : ∀ call ∈ calls, call.IsKey) :
    Ready p s (CalculatorCall.run c calls) := by
  induction calls generalizing c with
  | nil => exact h
  | cons call calls ih =>
    have hnext := h.apply (hcalls call List.mem_cons_self)
    exact ih hnext fun call' hmem => hcalls call' (List.mem_cons_of_mem call hmem)

end Ready

theorem vars_setInput {s : State} (hx : s.awaiting = some x) (line : String) :
    (s.setInput line).memory.vars = s.memory.vars.set x (.ofInput line) := by
  unfold State.setInput
  rw [hx]
  rfl

theorem InStep.waiting (h : InStep c) (hmode : c.mode = .input) :
    c.screen = .home ∧ ∃ r x, c.running = some r ∧ r.state.awaiting = some x := by
  constructor
  · cases hscreen : c.screen with
    | home => rfl
    | menu => rcases h.menuMode hscreen with hm | hm <;> cases hmode.symm.trans hm
  · obtain ⟨r, hr, hwait⟩ := h.input.mp hmode
    obtain ⟨x, hx⟩ := Option.isSome_iff_exists.mp hwait
    exact ⟨r, x, hr, hx⟩

/-- Whatever has gone before, a calculator in input mode waits for a variable. While no program is loaded and
Enter is not released, it stays in input mode, it touches nothing of its program but the key register, and the
frame changes by the line that is typed. Enter hands over the line, with its own character if it has one: the
variable is bound to what the line says, the line is empty, and the program runs on. Until the clock beats,
no key binds anything after that. -/
theorem line_delivered [Text.Typeface] (keys : KeyMap) (stepsPerTick : Int) (dice : Dice)
    (history : List CalculatorCall) :
    let c := run (.new keys stepsPerTick dice) history
    c.mode = .input →
      ∃ r x, c.running = some r ∧ r.state.awaiting = some x ∧
        ∀ calls : List CalculatorCall, (∀ call ∈ calls, call.TypesOn) →
          let t := Typing.after ⟨c.held, c.input⟩ calls
          let c₁ := run c calls
          c₁.mode = .input ∧
            (∃ number, c₁.running = some ⟨r.program, r.state.setKey number⟩) ∧
            (∃ version, c₁.snapshot = { { c with input := t.line }.snapshot with version := version }) ∧
            ∀ code key : String, isEnter code = true →
              let line := if key.length = 1 then t.line ++ key else t.line
              let c₂ := run c (calls ++ [.keyUp code key])
              c₂.mode = .run ∧ c₂.input = "" ∧
                ∃ s, c₂.running = some ⟨r.program, s⟩ ∧ s.awaiting = none ∧
                  s.memory.vars = r.state.memory.vars.set x (.ofInput line) ∧
                  ∀ more : List CalculatorCall, (∀ call ∈ more, call.IsKey) →
                    ∃ number, (run c₂ more).running = some ⟨r.program, s.setKey number⟩ := by
  intro c hmode
  have hsettled : Settled c := (settled_new keys stepsPerTick dice).run history
  obtain ⟨hscreen, r, x, hr, hx⟩ := hsettled.inStep.waiting hmode
  refine ⟨r, x, hr, hx, fun calls hcalls => ?_⟩
  intro t c₁
  have htyped : HasTyped c r t c₁ := (hasTyped_self hr hmode hscreen).run hcalls
  obtain ⟨number, version, hc₁⟩ := htyped
  refine ⟨hc₁ ▸ rfl, ⟨number, hc₁ ▸ rfl⟩, ⟨version, ?_⟩, fun code key henter => ?_⟩
  · rw [hc₁]
    simp only [snapshot, typed, hmode, hscreen]
  · intro line c₂
    -- Enter goes up on a calculator that has typed on so far, and types its own character first.
    have hc₂ : c₂ = c₁.keyUp code key := List.foldl_append
    rw [hc₁, keyUp_typed, if_pos henter] at hc₂
    let s := (r.state.setKey (c.numberAfter number code)).setInput line
    have hready : Ready r.program s c₂ := ⟨hc₂ ▸ rfl, hc₂ ▸ rfl, s.memory.key, hc₂ ▸ rfl⟩
    have hvars : s.memory.vars = r.state.memory.vars.set x (.ofInput line) :=
      vars_setInput (s := r.state.setKey (c.numberAfter number code)) hx line
    exact ⟨hready.mode, hc₂ ▸ rfl, s, hc₂ ▸ rfl, setInput_awaiting _ line, hvars,
      fun more hmore => (hready.run hmore).running⟩

end Calculator

def asking : Program := ⟨[⟨1, .input none "X"⟩], []⟩

theorem compile_asking : Program.compile "Input X" = .ok asking := by
  cbv

/-- The calculator, with one key that has a number itself. -/
def askingNew : Calculator := .new ⟨[("Digit4", 92)]⟩ 1 ⟨fun _ => 0, 0⟩

def askingHistory : List CalculatorCall := [.load "" "Input X", .tick]

theorem run_asking :
    CalculatorCall.run askingNew askingHistory = (askingNew.start "" asking).tick.2 := by
  rw [CalculatorCall.run, askingHistory, List.foldl_cons, CalculatorCall.apply_load_ok compile_asking]
  rfl

/-- The first key goes up late, the second digit is taken back, and another one is typed instead. Backspace
repeats, and the clock beats in between. -/
def askingCalls : List CalculatorCall :=
  [.keyDown "Digit4", .keyDown "Digit1", .keyUp "Digit4" "4", .keyUp "Digit1" "1", .keyDown "Backspace",
    .keyDown "Backspace", .tick, .keyUp "Backspace" "Backspace", .keyDown "Digit2", .keyUp "Digit2" "2"]

/-- The number is typed, and Enter binds the variable to it. -/
theorem line_delivered_asking :
    let c := CalculatorCall.run askingNew askingHistory
    let c' := CalculatorCall.run c (askingCalls ++ [.keyUp "Enter" "Enter"])
    c.mode = .input ∧ (∀ call ∈ askingCalls, call.TypesOn) ∧ c'.mode = .run ∧
      ∃ s, c'.running = some ⟨asking, s⟩ ∧ s.memory.vars.get? "X" = some (.ofInput "42") := by
  intro c c'
  have hc : c = (askingNew.start "" asking).tick.2 := run_asking
  have hmode : c.mode = .input := by
    rw [hc]
    rfl
  have hcalls : ∀ call ∈ askingCalls, call.TypesOn := by
    simp [askingCalls, CalculatorCall.TypesOn, Calculator.isEnter]
  have hline : (Typing.after ⟨c.held, c.input⟩ askingCalls).line = "42" := by
    rw [hc]
    decide
  have hprogram : c.running.map Running.program = some asking := by
    rw [hc]
    rfl
  have hwaits : c.running.bind (·.state.awaiting) = some "X" := by
    rw [hc]
    rfl
  obtain ⟨r, x, hr, hx, htyped⟩ :=
    Calculator.line_delivered ⟨[("Digit4", 92)]⟩ 1 ⟨fun _ => 0, 0⟩ askingHistory hmode
  have hrunning : c.running = some r := hr
  rw [hrunning] at hprogram hwaits
  obtain rfl : "X" = x := Option.some.inj (hwaits.symm.trans hx)
  obtain ⟨-, -, -, henter⟩ := htyped askingCalls hcalls
  obtain ⟨hrun, -, s, hs, -, hvars, -⟩ := henter "Enter" "Enter" rfl
  refine ⟨hmode, hcalls, hrun, s, ?_, ?_⟩
  · rw [← Option.some.inj hprogram]
    exact hs
  · have hbound : s.memory.vars = r.state.memory.vars.set "X"
        (.ofInput (Typing.after ⟨c.held, c.input⟩ askingCalls).line) := hvars
    rw [hbound, hline, Variables.get?_set, if_pos rfl]

end PocketBasic
