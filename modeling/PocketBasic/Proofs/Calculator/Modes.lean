import PocketBasic.Proofs.Calculator.InStep
import PocketBasic.Proofs.Machine.Pending

/-!
# The modes of the calculator follow its program

After a step the modes are those that its status asks for. A key changes a mode only where the program
is made to go on. So a calculator stays in step whatever is loaded, however the clock beats and
whichever keys go down or up.
-/

namespace PocketBasic

namespace Calculator

variable {c : Calculator} {r : Running}

theorem perform_eq [Text.Typeface] (c : Calculator) (s : Signal) :
    ∃ home menu, c.perform s = { c with home := home, menu := menu } := by
  cases s <;> exact ⟨_, _, rfl⟩

theorem foldl_perform_eq [Text.Typeface] (signals : List Signal) (c : Calculator) :
    ∃ home menu, signals.foldl perform c = { c with home := home, menu := menu } := by
  induction signals generalizing c with
  | nil => exact ⟨_, _, rfl⟩
  | cons s signals ih =>
    obtain ⟨home₁, menu₁, h₁⟩ := perform_eq c s
    obtain ⟨home₂, menu₂, h₂⟩ := ih (c.perform s)
    rw [List.foldl_cons, h₂, h₁]
    exact ⟨home₂, menu₂, rfl⟩

theorem step_eq [Text.Typeface] (c : Calculator) (r : Running) :
    ∃ home menu, c.step r =
      enter
        { c with
          running := some ⟨r.program, (r.state.step r.program c.menu.index).state⟩
          home := home
          menu := menu }
        (r.state.step r.program c.menu.index).status := by
  obtain ⟨home, menu, hshown⟩ := foldl_perform_eq (r.state.step r.program c.menu.index).signals
    { c with running := some ⟨r.program, (r.state.step r.program c.menu.index).state⟩ }
  refine ⟨home, menu, ?_⟩
  unfold step
  simp only [hshown]

/-- The modes that a status leads to are those of a program with this status. -/
theorem inStep_enter {status : Status} (hr : c.running = some r)
    (hfits : status.Fits r.program r.state) (hinput : c.input = "") (hfault : c.fault = none) :
    InStep (c.enter status) := by
  have hline (mode : RunMode) : c.input ≠ "" → mode = .input := fun h => absurd hinput h
  have hstop (mode : RunMode) : c.fault ≠ none → mode = .done := fun h => absurd hfault h
  cases status with
  | running =>
    obtain ⟨hwait, hchoice⟩ := hfits
    exact inStep_of_running hr (by simp [enter, State.isAwaiting, hwait]) (by simp [enter, hchoice])
      (by simp [enter]) (hline _) (hstop _) (by simp [enter])
  | paused =>
    obtain ⟨hwait, hchoice⟩ := hfits
    exact inStep_of_running hr (by simp [enter, State.isAwaiting, hwait]) (by simp [enter, hchoice])
      (by simp [enter]) (hline _) (hstop _) (by simp [enter])
  | awaiting =>
    obtain ⟨hwait, hchoice⟩ := hfits
    exact inStep_of_running hr (by simp [enter, hwait]) (by simp [enter, hchoice])
      (by simp [enter]) (hline _) (hstop _) (by simp [enter])
  | choosing =>
    obtain ⟨hwait, hchoice⟩ := hfits
    exact inStep_of_running hr (by simp [enter, State.isAwaiting, hwait]) (by simp [enter, hchoice])
      (fun _ => .inr rfl) (hline _) (hstop _) (by simp [enter])
  | halted fault =>
    obtain ⟨hmore, hwait, hchoice⟩ := hfits
    exact inStep_of_running hr (by simp [enter, State.isAwaiting, hwait]) (by simp [enter, hchoice])
      (by simp [enter]) (hline _) (fun _ => rfl) (fun _ => ⟨hmore, hwait, hchoice⟩)

theorem inStep_step [Text.Typeface] (h : InStep c) (hr : c.running = some r) (hmode : c.mode = .run) :
    InStep (c.step r) := by
  have hne : c.mode ≠ .input := by
    simp [hmode]
  have hlive : c.mode ≠ .done := by
    simp [hmode]
  have hfits := State.fits_step r.program c.menu.index (.inl (h.awaiting_eq_none hr hne))
  obtain ⟨home, menu, hstep⟩ := step_eq c r
  rw [hstep]
  exact inStep_enter rfl hfits (h.input_eq hne) (h.fault_eq_none hlive)

theorem InStep.withVersion (h : InStep c) (version : Nat) : InStep { c with version := version } :=
  h.congr rfl rfl rfl rfl h.line

theorem inStep_steps [Text.Typeface] (h : InStep c) (n : Nat) : InStep (c.steps n).2 :=
  steps_kept (fun _ _ h hmode hr => inStep_step h hr hmode) h n

theorem inStep_tick [Text.Typeface] (h : InStep c) : InStep c.tick.2 :=
  tick_kept (fun _ v h => h.withVersion v) (inStep_steps h c.stepsPerTick)

theorem inStep_keyDown (h : InStep c) (code : String) : InStep (c.keyDown code) := by
  unfold keyDown
  split
  · exact h
  · simp only
    split
    · split
      · exact h.congr rfl rfl rfl rfl h.line
      · split
        · exact h.congr rfl rfl rfl rfl h.line
        · exact h.congr rfl rfl rfl rfl h.line
    · split
      · refine h.congr rfl rfl rfl rfl fun hne => ?_
        apply h.line
        intro hempty
        apply hne
        simp only [hempty]
        rfl
      · exact h.congr rfl rfl rfl rfl h.line

/-- A program that was paused, or would be stepped anyway, may be stepped. -/
theorem InStep.resumed {c' : Calculator} (h : InStep c) (hmode : c.mode = .run ∨ c.mode = .pause)
    (hr : c'.running = c.running) (hmode' : c'.mode = .run) (hscreen : c'.screen = c.screen)
    (hline : c'.input = c.input) (hfault : c'.fault = c.fault) : InStep c' where
  input := by
    unfold inputPending
    rw [hr, hmode']
    have hno : ¬ c.inputPending := by
      rw [← h.input]
      rcases hmode with hm | hm <;> simp [hm]
    exact ⟨fun h => by simp at h, fun hp => absurd hp hno⟩
  menu := by
    unfold menuPending
    rw [hscreen, hr]
    exact h.menu
  menuMode _ := .inl hmode'
  line hne := by
    rw [hline] at hne
    have hm := h.line hne
    rw [hm] at hmode
    rcases hmode with hm | hm <;> cases hm
  fault hne := by
    rw [hfault] at hne
    have hm := h.fault hne
    rw [hm] at hmode
    rcases hmode with hm | hm <;> cases hm
  done hd := by
    rw [hmode'] at hd
    cases hd

/-- On the menu screen a key can only let the program go on. -/
theorem inStep_menuKey (h : InStep c) (hscreen : c.screen = .menu) (code : String) :
    InStep (c.menuKey code) := by
  have hmode := h.menuMode hscreen
  unfold menuKey
  split
  · exact h.resumed hmode rfl rfl rfl rfl rfl
  · split
    · split
      · exact h.resumed hmode rfl rfl rfl rfl rfl
      · exact h
    · exact h

theorem setInput_awaiting (s : State) (line : String) : (s.setInput line).awaiting = none := by
  unfold State.setInput
  cases hwait : s.awaiting with
  | some name => rfl
  | none => exact hwait

theorem setInput_choice (s : State) (line : String) : (s.setInput line).choice = s.choice := by
  unfold State.setInput
  split <;> rfl

theorem InStep.answered (h : InStep c) (hscreen : c.screen = .home)
    (hmode : c.mode = .pause ∨ c.mode = .input) {p : Program} {s : State} (hchoice : s.choice = none)
    (line : String) :
    InStep { c with running := some ⟨p, s.setInput line⟩, input := "", mode := .run } := by
  have hlive : c.mode ≠ .done := by
    rcases hmode with hm | hm <;> simp [hm]
  have hfault := h.fault_eq_none hlive
  exact inStep_of_running rfl (by simp [State.isAwaiting, setInput_awaiting])
    (by simp [hscreen, setInput_choice, hchoice]) (by simp [hscreen]) (by simp) (by simp [hfault])
    (by simp)

theorem InStep.typed (h : InStep c) (hr : c.running = some r) {line : String}
    (hline : line ≠ "" → c.mode = .input) (m : Memory) :
    InStep { c with running := some ⟨r.program, { r.state with memory := m }⟩, input := line } := by
  have hinput := h.input.trans (inputPending_iff hr)
  have hmenu := h.menu.trans (menuPending_iff hr)
  exact inStep_of_running rfl hinput hmenu h.menuMode hline h.fault fun hd => h.done hd r hr

theorem homeKey_eq (c : Calculator) (r : Running) (code key : String) :
    ∃ m, c.homeKey r code key =
      if isEnter code ∧ (c.mode = .pause ∨ c.mode = .input) then
        { c with
          running := some ⟨r.program, State.setInput { r.state with memory := m }
            (if c.mode = .input ∧ key.length = 1 then c.input ++ key else c.input)⟩
          input := ""
          mode := .run }
      else
        { c with
          running := some ⟨r.program, { r.state with memory := m }⟩
          input := if c.mode = .input ∧ key.length = 1 then c.input ++ key else c.input } := by
  unfold homeKey
  cases c.keys.get? code with
  | some n => exact ⟨_, rfl⟩
  | none => exact ⟨_, rfl⟩

theorem inStep_homeKey (h : InStep c) (hr : c.running = some r) (hscreen : c.screen = .home)
    (code key : String) : InStep (c.homeKey r code key) := by
  have hchoice := h.choice_eq_none hr hscreen
  have hline : (if c.mode = .input ∧ key.length = 1 then c.input ++ key else c.input) ≠ "" →
      c.mode = .input := by
    split
    · next hmode => exact fun _ => hmode.1
    · exact h.line
  obtain ⟨m, hm⟩ := homeKey_eq c r code key
  rw [hm]
  split
  · next hgo => exact h.answered (s := { r.state with memory := m }) hscreen hgo.2 hchoice _
  · exact h.typed hr hline m

theorem inStep_keyUp (h : InStep c) (code key : String) : InStep (c.keyUp code key) := by
  have hheld (held : String) : InStep { c with held := held } := h.congr rfl rfl rfl rfl h.line
  exact keyUp_kept (fun _ v h => h.withVersion v) hheld
    (fun _ _ h _ hscreen => inStep_menuKey h hscreen code)
    (fun _ _ h hr hscreen => inStep_homeKey h hr hscreen code key)

theorem inStep_apply [Text.Typeface] (h : InStep c) (call : CalculatorCall) :
    InStep (CalculatorCall.apply c call) := by
  cases call with
  | load name source => exact CalculatorCall.load_kept h fun p _ => inStep_start c name p
  | tick => exact inStep_tick h
  | keyDown code => exact inStep_keyDown h code
  | keyUp code key => exact inStep_keyUp h code key

theorem InStep.run [Text.Typeface] (h : InStep c) (calls : List CalculatorCall) :
    InStep (CalculatorCall.run c calls) :=
  CalculatorCall.run_kept (P := InStep) (fun _ call h => inStep_apply h call) calls h

/-- Whatever is loaded, however the clock beats and whichever keys go down and up, the modes of a new
calculator stay in step with its program. -/
theorem inStep_run_new [Text.Typeface] (keys : KeyMap) (stepsPerTick : Int) (dice : Dice)
    (calls : List CalculatorCall) : InStep (CalculatorCall.run (.new keys stepsPerTick dice) calls) :=
  CalculatorCall.run_kept (P := InStep) (fun _ call h => inStep_apply h call) calls
    (inStep_new keys stepsPerTick dice)

end Calculator

end PocketBasic
