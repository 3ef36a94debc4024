import PocketBasic.Proofs.Calculator.Modes

/-!
# The highlighted option

The menu screen shows one label for each option of the menu that the program has opened, and the
highlight is on one of them. `Highlights` says so. It holds of a new calculator, and loading a program,
the clock and the keys keep it.
-/

namespace PocketBasic

theorem Expr.length_evalList (xs : List Expr) (m : Memory) :
    (Expr.evalList xs m).1.length = xs.length := by
  induction xs generalizing m with
  | nil => rfl
  | cons x xs ih => simp only [Expr.evalList, List.length_cons, ih]

namespace State

variable {p : Program} {s : State} {o : Outcome} {choice : Choice}

/-- Only the statement Menu opens a menu, and it shows one text for each option. -/
theorem signals_of_run_choice {line : Nat} {command : Command} (hc : s.choice = none)
    (hrun : s.run p line command = .ok o) (hopen : o.state.choice = some choice) :
    ∃ title texts, o.signals = [.menu title texts] ∧ texts.length = choice.options.length := by
  have shut {s' : State} (hsame : SamePending s s') (h : s'.choice = some choice) :
      ∃ title texts, o.signals = [.menu title texts] ∧ texts.length = choice.options.length := by
    rw [hsame.choice, hc] at h
    cases h
  cases command with
  | menu title options =>
    cases hrun
    cases hopen
    refine ⟨_, _, rfl, ?_⟩
    rw [List.length_map]
    exact (Expr.length_evalList _ s.memory).trans (List.length_map _)
  | goto name =>
    obtain ⟨s', hj, rfl⟩ := map_proceed_eq_ok hrun
    obtain ⟨i, -, rfl⟩ := jump_eq_ok hj
    exact shut ⟨rfl, rfl⟩ hopen
  | endMark =>
    obtain ⟨s', hend, rfl⟩ := map_proceed_eq_ok hrun
    exact shut (samePending_runEnd hend) hopen
  | forLoop var start stop step =>
    cases hrun
    exact shut (samePending_runFor s var start stop step) hopen
  | ifTest cond =>
    cases hrun
    exact shut (samePending_runIf s p cond) hopen
  | elseMark =>
    cases hrun
    exact shut (samePending_runElse s) hopen
  | whileLoop cond =>
    cases hrun
    have htest := samePending_startSkipUnless ((s.push s.pc).eval cond).2
      ((s.push s.pc).eval cond).1.truthy
    exact shut ⟨htest.awaiting, htest.choice⟩ hopen
  | prompt vars =>
    cases hrun
    have hsame : (s.runPrompt vars).state.choice = s.choice := by
      unfold runPrompt
      split
      · rfl
      · simp only
        split <;> rfl
    cases hc.symm.trans (hsame.symm.trans hopen)
  | pause value => cases value <;> cases hrun <;> exact shut ⟨rfl, rfl⟩ hopen
  | input prompt var => cases prompt <;> cases hrun <;> cases hc.symm.trans hopen
  | program name => cases hrun
  | _ =>
    cases hrun
    exact shut ⟨rfl, rfl⟩ hopen

/-- A menu that is open after a step has just been shown, or nothing has happened. -/
theorem signals_of_step_choice {selection : Int}
    (hopen : (s.step p selection).state.choice = some choice) :
    s.step p selection = ⟨s, .awaiting, []⟩ ∨
      ∃ title texts, (s.step p selection).signals = [.menu title texts] ∧
        texts.length = choice.options.length := by
  have hstep := stepped_step p s selection
  generalize s.step p selection = o at hstep hopen ⊢
  cases hstep with
  | waits _ => exact .inl rfl
  | chooses _ _ _ _ _ => cases hopen
  | ends _ hc _ => cases hc.symm.trans hopen
  | passes _ hc _ _ => cases hc.symm.trans ((samePending_pass s p _).choice.symm.trans hopen)
  | runs _ hc _ _ hrun => exact .inr (signals_of_run_choice hc hrun hopen)
  | fails _ _ => cases hopen

end State

namespace Menu

variable {m : Menu}

@[simp] theorem labels_next (m : Menu) : m.next.labels = m.labels := by
  unfold next
  split <;> rfl

@[simp] theorem labels_previous (m : Menu) : m.previous.labels = m.labels := by
  unfold previous
  split <;> rfl

@[simp] theorem labels_select (m : Menu) (i : Int) : (m.select i).labels = m.labels := rfl

/-- The highlight is on an option, if there is one. -/
def InRange (m : Menu) : Prop := m.index ≤ m.labels.length - 1

theorem inRange_ofOptions [Text.Typeface] (title : String) (options : List String) :
    (ofOptions title options).InRange :=
  Nat.zero_le _

theorem inRange_select (m : Menu) (i : Int) : (m.select i).InRange := Nat.min_le_right _ _

theorem InRange.next (h : m.InRange) : m.next.InRange := by
  unfold Menu.next
  split
  · exact h
  · next hne =>
    have hpos : 0 < m.labels.length := by
      rw [List.length_pos_iff]
      exact fun hnil => hne (by rw [hnil]; rfl)
    exact Nat.le_pred_of_lt (Nat.mod_lt _ hpos)

theorem InRange.previous (h : m.InRange) : m.previous.InRange := by
  unfold Menu.previous
  split
  · exact h
  · unfold InRange at h ⊢
    simp only
    split <;> omega

end Menu

namespace Calculator

/-- What the menu screen has to do with the open menu. -/
structure Highlights (c : Calculator) : Prop where
  rate : 0 < c.stepsPerTick
  index : c.menu.InRange
  labels : ∀ r choice, c.running = some r → r.state.choice = some choice →
    c.menu.labels.length = choice.options.length

variable {c c' : Calculator} {r : Running}

theorem highlights_new (keys : KeyMap) (stepsPerTick : Int) (dice : Dice) :
    Highlights (.new keys stepsPerTick dice) where
  rate := by
    simp only [new]
    split <;> omega
  index := Nat.zero_le _
  labels _ _ hr := by cases hr

theorem highlights_start [Text.Typeface] (h : Highlights c) (name : String) (p : Program) :
    Highlights (c.start name p) where
  rate := h.rate
  index := Menu.inRange_ofOptions _ _
  labels r choice hr hchoice := by
    cases hr
    cases hchoice

/-- A calculator that shows the same labels, and whose program has the same menu open if it has one. -/
theorem Highlights.congr (h : Highlights c) (hrate : c'.stepsPerTick = c.stepsPerTick)
    (hlabels : c'.menu.labels = c.menu.labels) (hindex : c'.menu.InRange)
    (hopen : ∀ r' choice, c'.running = some r' → r'.state.choice = some choice →
      ∃ r, c.running = some r ∧ r.state.choice = some choice) : Highlights c' where
  rate := hrate ▸ h.rate
  index := hindex
  labels r' choice hr' hchoice' := by
    obtain ⟨r, hr, hchoice⟩ := hopen r' choice hr' hchoice'
    rw [hlabels]
    exact h.labels r choice hr hchoice

theorem Highlights.moved (h : Highlights c) (hrate : c'.stepsPerTick = c.stepsPerTick)
    (hlabels : c'.menu.labels = c.menu.labels) (hindex : c'.menu.InRange)
    (hr : c'.running = c.running) : Highlights c' :=
  h.congr hrate hlabels hindex fun r _ hr' hchoice => ⟨r, hr ▸ hr', hchoice⟩

theorem inRange_foldl_perform [Text.Typeface] (signals : List Signal) (h : c.menu.InRange) :
    (signals.foldl perform c).menu.InRange := by
  induction signals generalizing c with
  | nil => exact h
  | cons s signals ih =>
    apply ih
    cases s with
    | menu title options => exact Menu.inRange_ofOptions title options
    | _ => exact h

@[simp] theorem enter_menu (c : Calculator) (status : Status) : (c.enter status).menu = c.menu := by
  cases status <;> rfl

@[simp] theorem enter_running (c : Calculator) (status : Status) :
    (c.enter status).running = c.running := by
  cases status <;> rfl

@[simp] theorem enter_stepsPerTick (c : Calculator) (status : Status) :
    (c.enter status).stepsPerTick = c.stepsPerTick := by
  cases status <;> rfl

theorem highlights_step [Text.Typeface] (h : Highlights c) (hr : c.running = some r) :
    Highlights (c.step r) := by
  generalize ho : r.state.step r.program c.menu.index = o
  obtain ⟨home, menu, hshown⟩ := foldl_perform_eq o.signals
    { c with running := some ⟨r.program, o.state⟩ }
  have hrange := inRange_foldl_perform (c := { c with running := some ⟨r.program, o.state⟩ })
    o.signals h.index
  have hmenu : (o.signals.foldl perform { c with running := some ⟨r.program, o.state⟩ }).menu = menu := by
    rw [hshown]
  unfold step
  rw [ho]
  simp only [hshown] at hrange ⊢
  refine ⟨by simpa using h.rate, by simpa using hrange, ?_⟩
  intro r' choice hr' hchoice
  simp only [enter_running, Option.some.injEq] at hr'
  subst hr'
  rw [enter_menu]
  subst ho
  rcases State.signals_of_step_choice hchoice with hwaits | ⟨title, texts, hsignals, hlength⟩
  · rw [hwaits] at hmenu hchoice
    rw [← hmenu]
    exact h.labels r choice hr hchoice
  · rw [hsignals] at hmenu
    rw [← hmenu]
    exact (List.length_map _).trans hlength

theorem highlights_steps [Text.Typeface] (h : Highlights c) (n : Nat) : Highlights (c.steps n).2 :=
  steps_kept (fun _ _ h _ hr => highlights_step h hr) h n

theorem highlights_tick [Text.Typeface] (h : Highlights c) : Highlights c.tick.2 :=
  tick_kept (fun _ _ h => h.moved rfl rfl h.index rfl) (highlights_steps h c.stepsPerTick)

theorem highlights_keyDown (h : Highlights c) (code : String) : Highlights (c.keyDown code) := by
  unfold keyDown
  split
  · exact h
  · simp only
    split
    · split
      · exact h.moved rfl (Menu.labels_previous _) h.index.previous rfl
      · split
        · exact h.moved rfl (Menu.labels_next _) h.index.next rfl
        · exact h.moved rfl rfl h.index rfl
    · split
      · exact h.moved rfl rfl h.index rfl
      · exact h.moved rfl rfl h.index rfl

theorem highlights_menuKey (h : Highlights c) (code : String) : Highlights (c.menuKey code) := by
  unfold menuKey
  split
  · exact h.moved rfl rfl h.index rfl
  · split
    · split
      · exact h.moved rfl (Menu.labels_select _ _) (Menu.inRange_select _ _) rfl
      · exact h
    · exact h

theorem highlights_homeKey (h : Highlights c) (hr : c.running = some r) (code key : String) :
    Highlights (c.homeKey r code key) := by
  obtain ⟨m, hm⟩ := homeKey_eq c r code key
  rw [hm]
  split
  · refine h.congr rfl rfl h.index fun r' choice hr' hchoice => ⟨r, hr, ?_⟩
    cases hr'
    rw [setInput_choice] at hchoice
    exact hchoice
  · refine h.congr rfl rfl h.index fun r' choice hr' hchoice => ⟨r, hr, ?_⟩
    cases hr'
    exact hchoice

theorem highlights_keyUp (h : Highlights c) (code key : String) : Highlights (c.keyUp code key) :=
  keyUp_kept (fun _ _ h => h.moved rfl rfl h.index rfl) (fun _ => h.moved rfl rfl h.index rfl)
    (fun _ _ h _ _ => highlights_menuKey h code) (fun _ _ h hr _ => highlights_homeKey h hr code key)

theorem highlights_apply [Text.Typeface] (h : Highlights c) (call : CalculatorCall) :
    Highlights (CalculatorCall.apply c call) := by
  cases call with
  | load name source => exact CalculatorCall.load_kept h fun p _ => highlights_start h name p
  | tick => exact highlights_tick h
  | keyDown code => exact highlights_keyDown h code
  | keyUp code key => exact highlights_keyUp h code key

theorem Highlights.option (h : Highlights c) (hr : c.running = some r) {choice : Choice}
    (hchoice : r.state.choice = some choice) (hoptions : choice.options ≠ []) :
    ∃ o, choice.options[c.menu.index]? = some o := by
  have hlength := h.labels r choice hr hchoice
  have hindex : c.menu.index ≤ c.menu.labels.length - 1 := h.index
  have hpos := List.length_pos_iff.mpr hoptions
  have hlt : c.menu.index < choice.options.length := by omega
  exact ⟨_, List.getElem?_eq_getElem hlt⟩

theorem highlights_run_new [Text.Typeface] (keys : KeyMap) (stepsPerTick : Int) (dice : Dice)
    (calls : List CalculatorCall) : Highlights (CalculatorCall.run (.new keys stepsPerTick dice) calls) :=
  CalculatorCall.run_kept (P := Highlights) (fun _ call h => highlights_apply h call) calls
    (highlights_new keys stepsPerTick dice)

end Calculator

end PocketBasic
