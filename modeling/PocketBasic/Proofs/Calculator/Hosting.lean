import PocketBasic.Proofs.Calculator.Highlight
import PocketBasic.Proofs.Machine.Safety

/-!
# The calculator as a host of its program

The calculator touches its program by host calls only: the clock steps it, a key sets the key register, and
Enter hands a line over. So what holds of the machine after any calls holds of the program in a calculator
(`Driven`). `Settled` puts this together with what is known of the modes and of the menu.
-/

namespace PocketBasic

namespace HostCall

theorem run_append (p : Program) (dice : Dice) (calls more : List HostCall) :
    run p dice (calls ++ more) = more.foldl (apply p) (run p dice calls) :=
  List.foldl_append

end HostCall

namespace Calculator

open CalculatorCall (run)

variable {c c' : Calculator} {r : Running}

/-- The program is a compiled one, and host calls have brought it where it is. -/
def Driven (c : Calculator) : Prop :=
  ∀ r, c.running = some r → ∃ source dice calls,
    Program.compile source = .ok r.program ∧ r.state = HostCall.run r.program dice calls

theorem driven_start [Text.Typeface] {source : String} {p : Program} (hp : Program.compile source = .ok p)
    (c : Calculator) (name : String) : Driven (c.start name p) := by
  intro r hr
  cases hr
  exact ⟨source, c.remainingDice, [], hp, rfl⟩

theorem Driven.congr (h : Driven c) (hr : c'.running = c.running) : Driven c' := by
  intro r' hr'
  exact h r' (hr ▸ hr')

theorem Driven.followed (h : Driven c) (hr : c.running = some r) (more : List HostCall)
    (hr' : c'.running = some ⟨r.program, more.foldl (HostCall.apply r.program) r.state⟩) :
    Driven c' := by
  obtain ⟨source, dice, calls, hp, hstate⟩ := h r hr
  intro r' hr''
  cases hr'.symm.trans hr''
  refine ⟨source, dice, calls ++ more, hp, ?_⟩
  rw [HostCall.run_append, ← hstate]

theorem running_step [Text.Typeface] (c : Calculator) (r : Running) :
    (c.step r).running = some ⟨r.program, (r.state.step r.program c.menu.index).state⟩ := by
  obtain ⟨home, menu, hstep⟩ := step_eq c r
  rw [hstep, enter_running]

theorem driven_steps [Text.Typeface] (h : Driven c) (n : Nat) : Driven (c.steps n).2 :=
  steps_kept (fun c r h _ hr => h.followed hr [.step c.menu.index] (running_step c r)) h n

theorem keyDown_frame (c : Calculator) (code : String) :
    ∃ held version menu input, c.keyDown code =
      { c with held := held, version := version, menu := menu, input := input } := by
  unfold keyDown
  split
  · exact ⟨_, _, _, _, rfl⟩
  · simp only
    split
    · split
      · exact ⟨_, _, _, _, rfl⟩
      · split <;> exact ⟨_, _, _, _, rfl⟩
    · split <;> exact ⟨_, _, _, _, rfl⟩

theorem menuKey_frame (c : Calculator) (code : String) :
    ∃ mode menu, c.menuKey code = { c with mode := mode, menu := menu } := by
  unfold menuKey
  split
  · exact ⟨_, _, rfl⟩
  · split
    · split <;> exact ⟨_, _, rfl⟩
    · exact ⟨_, _, rfl⟩

theorem homeKey_frame (c : Calculator) (r : Running) (code key : String) :
    ∃ state mode input, c.homeKey r code key =
      { c with running := some ⟨r.program, state⟩, mode := mode, input := input } := by
  unfold homeKey
  simp only
  split <;> exact ⟨_, _, _, rfl⟩

theorem running_menuKey (c : Calculator) (code : String) : (c.menuKey code).running = c.running := by
  obtain ⟨mode, menu, hkey⟩ := menuKey_frame c code
  rw [hkey]

theorem driven_homeKey (h : Driven c) (hr : c.running = some r) (code key : String) :
    Driven (c.homeKey r code key) := by
  unfold homeKey
  cases c.keys.get? code with
  | some n =>
    simp only
    split
    · exact h.followed hr [.key n, .input _] rfl
    · exact h.followed hr [.key n] rfl
  | none =>
    simp only
    split
    · exact h.followed hr [.input _] rfl
    · exact h.followed hr [] rfl

theorem driven_apply [Text.Typeface] (h : Driven c) (call : CalculatorCall) :
    Driven (CalculatorCall.apply c call) := by
  cases call with
  | load name source => exact CalculatorCall.load_kept h fun p hp => driven_start hp c name
  | tick => exact tick_kept (fun _ _ h => h.congr rfl) (driven_steps h _)
  | keyDown code =>
    obtain ⟨held, version, menu, input, hdown⟩ := keyDown_frame c code
    rw [CalculatorCall.apply, hdown]
    exact h.congr rfl
  | keyUp code key =>
    exact keyUp_kept (fun _ _ h => h.congr rfl) (fun _ => h.congr rfl)
      (fun c _ h _ _ => h.congr (running_menuKey c code))
      (fun _ _ h hr _ => driven_homeKey h hr code key)

theorem Driven.sound (h : Driven c) (hr : c.running = some r) : r.state.Sound r.program := by
  obtain ⟨source, dice, calls, hp, hstate⟩ := h r hr
  have haccepted := accepted_of_compile hp
  rw [hstate]
  exact HostCall.run_induction dice calls (State.sound_initial r.program dice) fun s call hs =>
    State.sound_apply haccepted hs call

def Loaded (c : Calculator) : Prop := c.mode = .run → c.running.isSome = true

theorem loaded_of_running (hr : c.running = some r) : Loaded c := by
  intro _
  rw [hr]
  rfl

theorem loaded_steps [Text.Typeface] (h : Loaded c) (n : Nat) : Loaded (c.steps n).2 :=
  steps_kept (fun c r _ _ _ => loaded_of_running (running_step c r)) h n

theorem loaded_apply [Text.Typeface] (h : Loaded c) (call : CalculatorCall) :
    Loaded (CalculatorCall.apply c call) := by
  cases call with
  | load name source => exact CalculatorCall.load_kept h fun p _ => loaded_of_running rfl
  | tick => exact tick_kept (fun _ _ h => h) (loaded_steps h _)
  | keyDown code =>
    obtain ⟨held, version, menu, input, hdown⟩ := keyDown_frame c code
    rw [CalculatorCall.apply, hdown]
    exact h
  | keyUp code key =>
    refine keyUp_kept (fun _ _ h => h) (fun _ => h)
      (fun c r _ hr _ => loaded_of_running ((running_menuKey c code).trans hr)) (fun c r _ _ _ => ?_)
    obtain ⟨state, mode, input, hkey⟩ := homeKey_frame c r code key
    rw [hkey]
    exact loaded_of_running rfl

/-- The invariants of a calculator, at all moments between the steps of its program. -/
structure Settled (c : Calculator) : Prop where
  inStep : InStep c
  highlights : Highlights c
  driven : Driven c
  loaded : Loaded c

theorem settled_new (keys : KeyMap) (stepsPerTick : Int) (dice : Dice) :
    Settled (.new keys stepsPerTick dice) where
  inStep := inStep_new keys stepsPerTick dice
  highlights := highlights_new keys stepsPerTick dice
  driven _ hr := by cases hr
  loaded hmode := by cases hmode

theorem Settled.steps [Text.Typeface] (h : Settled c) (n : Nat) : Settled (c.steps n).2 where
  inStep := inStep_steps h.inStep n
  highlights := highlights_steps h.highlights n
  driven := driven_steps h.driven n
  loaded := loaded_steps h.loaded n

theorem Settled.apply [Text.Typeface] (h : Settled c) (call : CalculatorCall) :
    Settled (CalculatorCall.apply c call) where
  inStep := inStep_apply h.inStep call
  highlights := highlights_apply h.highlights call
  driven := driven_apply h.driven call
  loaded := loaded_apply h.loaded call

theorem Settled.run [Text.Typeface] (h : Settled c) (calls : List CalculatorCall) : Settled (run c calls) :=
  CalculatorCall.run_kept (P := Settled) (fun _ call h => h.apply call) calls h

end Calculator

end PocketBasic
