import Mathlib
import PocketBasic.Proofs.Calculator.Highlight
import PocketBasic.Text.Cluster

/-!
# Taking the option of a menu

Enter and the digits let the program go on from a menu, but which option it takes is read from the
highlight when the clock beats. Keys that come in between may still move the highlight: the option that
was confirmed is taken if none of them does.
-/

namespace PocketBasic

namespace CalculatorCall

def IsKey : CalculatorCall → Prop
  | .keyDown _ | .keyUp .. => True
  | .load .. | .tick => False

/-- The keys that move the highlight of a menu are the arrows when they go down and the digits when
they go up. -/
def MovesHighlight : CalculatorCall → Prop
  | .keyDown code => code = "ArrowUp" ∨ code = "ArrowDown"
  | .keyUp code _ => (Calculator.digit? code).isSome = true
  | .load .. | .tick => False

end CalculatorCall

namespace Calculator

open CalculatorCall (run)

variable {c c' : Calculator} {r : Running} {choice : Choice} {o : MenuOption} {i : Nat}
  {code : String}

/-- The key confirms option `i` of the menu on the screen when it goes up. -/
def Confirms (c : Calculator) (code : String) (i : Nat) : Prop :=
  isEnter code = true ∧ i = c.menu.index ∨
    isEnter code = false ∧ digit? code = some (i + 1 : Int) ∧ i < c.menu.labels.length

/-- The program goes on at the label of an option, or ends if there is no such label. -/
def takeOption (c : Calculator) (r : Running) (choice : Choice) (o : MenuOption) : Calculator :=
  match r.program.labels.find? o.label with
  | some i =>
    { c with
      running := some ⟨r.program, { r.state with choice := none, pc := i }⟩
      screen := .home
      mode := .run }
  | none =>
    { c with
      running := some ⟨r.program, (r.state.halt r.program (.undefinedLabel choice.line o.label)).state⟩
      screen := .home
      mode := .done
      fault := some (.undefinedLabel choice.line o.label) }

theorem step_eq_takeOption [Text.Typeface] (hwait : r.state.awaiting = none)
    (hchoice : r.state.choice = some choice)
    (ho : choice.options[c.menu.index]? = some o) : c.step r = c.takeOption r choice o := by
  have hselected : ¬ ((c.menu.index : Int) < 0) := by omega
  unfold takeOption step State.step
  simp only [hwait, hchoice, State.resume, hselected, if_false, Int.toNat_natCast, ho, State.jump]
  cases r.program.labels.find? o.label with
  | some i => rfl
  | none => rfl

theorem tick_eq_takeOption [Text.Typeface] (hrate : 0 < c.stepsPerTick) (hmode : c.mode = .run)
    (hr : c.running = some r) (hwait : r.state.awaiting = none)
    (hchoice : r.state.choice = some choice) (ho : choice.options[c.menu.index]? = some o) :
    c.tick = (true, { ((c.takeOption r choice o).steps (c.stepsPerTick - 1)).2 with
      version := ((c.takeOption r choice o).steps (c.stepsPerTick - 1)).2.version + 1 }) := by
  obtain ⟨n, hn⟩ := Nat.exists_eq_succ_of_ne_zero (Nat.ne_of_gt hrate)
  have hfirst : c.steps c.stepsPerTick = (true, ((c.takeOption r choice o).steps n).2) := by
    rw [hn]
    simp only [steps, hmode, hr, step_eq_takeOption hwait hchoice ho]
  unfold tick
  rw [hfirst, hn]
  rfl

/-- Keys on the menu screen do nothing to the program, and a menu that was confirmed stays so. -/
structure StillOpen (c c' : Calculator) : Prop where
  running : c'.running = c.running
  screen : c'.screen = .menu
  mode : c.mode = .run → c'.mode = .run
  rate : c'.stepsPerTick = c.stepsPerTick

theorem StillOpen.trans {c'' : Calculator} (h : StillOpen c c') (h' : StillOpen c' c'') :
    StillOpen c c'' where
  running := h'.running.trans h.running
  screen := h'.screen
  mode hmode := h'.mode (h.mode hmode)
  rate := h'.rate.trans h.rate

theorem stillOpen_keyDown (hscreen : c.screen = .menu) (code : String) :
    StillOpen c (c.keyDown code) := by
  unfold keyDown
  split
  · exact ⟨rfl, hscreen, id, rfl⟩
  · simp only
    split
    · split
      · exact ⟨rfl, hscreen, id, rfl⟩
      · split <;> exact ⟨rfl, hscreen, id, rfl⟩
    · split <;> exact ⟨rfl, hscreen, id, rfl⟩

theorem stillOpen_menuKey (hscreen : c.screen = .menu) (code : String) :
    StillOpen c (c.menuKey code) := by
  unfold menuKey
  split
  · exact ⟨rfl, hscreen, fun _ => rfl, rfl⟩
  · split
    · split
      · exact ⟨rfl, hscreen, fun _ => rfl, rfl⟩
      · exact ⟨rfl, hscreen, id, rfl⟩
    · exact ⟨rfl, hscreen, id, rfl⟩

/-- A key that goes up on the menu screen is a key of the menu. -/
theorem keyUp_menu (hscreen : c.screen = .menu) (hr : c.running = some r) (code key : String) :
    ∃ held version, c.keyUp code key =
      { ({ c with held := held } : Calculator).menuKey code with version := version } := by
  obtain ⟨held, he⟩ := released_eq c code
  unfold keyUp
  simp only [he]
  split
  · next hnone => cases hr.symm.trans hnone
  · split
    · exact ⟨held, _, rfl⟩
    · next hhome => cases hscreen.symm.trans hhome

theorem stillOpen_apply [Text.Typeface] (hscreen : c.screen = .menu) (hr : c.running = some r)
    {e : CalculatorCall} (hkey : e.IsKey) : StillOpen c (CalculatorCall.apply c e) := by
  cases e with
  | load name source => cases hkey
  | tick => cases hkey
  | keyDown code => exact stillOpen_keyDown hscreen code
  | keyUp code key =>
    obtain ⟨held, version, he⟩ := keyUp_menu hscreen hr code key
    have h := stillOpen_menuKey (c := { c with held := held }) hscreen code
    rw [CalculatorCall.apply, he]
    exact ⟨h.running, h.screen, h.mode, h.rate⟩

theorem menu_menuKey (hdigit : (digit? code).isSome = false) : (c.menuKey code).menu = c.menu := by
  unfold menuKey
  split
  · rfl
  · rw [Option.isSome_eq_false_iff, Option.isNone_iff_eq_none] at hdigit
    rw [hdigit]

theorem menu_apply [Text.Typeface] (hscreen : c.screen = .menu) (hr : c.running = some r) {e : CalculatorCall}
    (hkey : e.IsKey) (hmoves : ¬ e.MovesHighlight) : (CalculatorCall.apply c e).menu = c.menu := by
  cases e with
  | load name source => cases hkey
  | tick => cases hkey
  | keyDown code =>
    obtain ⟨hup, hdown⟩ := not_or.mp hmoves
    unfold CalculatorCall.apply keyDown
    simp only [hup, hdown, if_false]
    split
    · rfl
    · split
      · rfl
      · split <;> rfl
  | keyUp code key =>
    obtain ⟨held, version, he⟩ := keyUp_menu hscreen hr code key
    rw [CalculatorCall.apply, he]
    exact menu_menuKey (Bool.eq_false_iff.mpr hmoves)

theorem stillOpen_run [Text.Typeface] (hscreen : c.screen = .menu) (hr : c.running = some r)
    {events : List CalculatorCall} (hkeys : ∀ e ∈ events, e.IsKey) :
    StillOpen c (run c events) ∧
      ((∀ e ∈ events, ¬ e.MovesHighlight) → (run c events).menu = c.menu) := by
  induction events generalizing c with
  | nil => exact ⟨⟨rfl, hscreen, id, rfl⟩, fun _ => rfl⟩
  | cons e events ih =>
    have hkey := hkeys e List.mem_cons_self
    have hfirst := stillOpen_apply hscreen hr hkey
    obtain ⟨hopen, hmenu⟩ := ih hfirst.screen (hfirst.running.trans hr)
      fun e' he' => hkeys e' (List.mem_cons_of_mem e he')
    refine ⟨hfirst.trans hopen, fun hstill => ?_⟩
    have hrest := hmenu fun e' he' => hstill e' (List.mem_cons_of_mem e he')
    exact hrest.trans (menu_apply hscreen hr hkey (hstill e List.mem_cons_self))

/-- The key that confirms an option highlights it and lets the program go on. -/
theorem keyUp_of_confirms (hscreen : c.screen = .menu) (hr : c.running = some r) {code : String}
    (key : String) (hconfirms : c.Confirms code i) :
    (c.keyUp code key).mode = .run ∧ (c.keyUp code key).menu.index = i := by
  obtain ⟨held, version, he⟩ := keyUp_menu hscreen hr code key
  rw [he]
  rcases hconfirms with ⟨henter, rfl⟩ | ⟨henter, hdigit, hlt⟩
  · simp only [menuKey, henter, if_true]
    exact ⟨trivial, trivial⟩
  · have hrange : 1 ≤ (i + 1 : Int) ∧ (i + 1 : Int) ≤ c.menu.labels.length := by omega
    have hselected : min (i + 1 - 1 : Int).toNat (c.menu.labels.length - 1) = i := by omega
    simp only [menuKey, henter, hdigit, hrange, Bool.false_eq_true, if_false, if_true, and_self,
      Menu.select, hselected]

theorem InStep.awaiting_of_menu (h : InStep c) (hr : c.running = some r)
    (hscreen : c.screen = .menu) : r.state.awaiting = none := by
  refine h.awaiting_eq_none hr ?_
  rcases h.menuMode hscreen with hm | hm <;> simp [hm]

/-- From a menu the next beat goes on at the label of the option that is highlighted by then, and this
is the option that was confirmed if no key has moved the highlight in between. -/
theorem tick_of_confirmed [Text.Typeface] (keys : KeyMap) (stepsPerTick : Int) (dice : Dice)
    (calls : List CalculatorCall) {c : Calculator}
    (hc : c = run (.new keys stepsPerTick dice) calls) (hscreen : c.screen = .menu)
    (hlabels : c.menu.labels ≠ []) {code : String} (key : String) {i : Nat}
    (hconfirms : c.Confirms code i) {events : List CalculatorCall}
    (hkeys : ∀ e ∈ events, e.IsKey) {c' : Calculator}
    (hc' : c' = run (c.keyUp code key) events) :
    (c.keyUp code key).mode = .run ∧
      ∃ r choice o, c.running = some r ∧ r.state.choice = some choice ∧
        choice.options[c'.menu.index]? = some o ∧
        c'.tick = (true, { ((c'.takeOption r choice o).steps (c.stepsPerTick - 1)).2 with
          version := ((c'.takeOption r choice o).steps (c.stepsPerTick - 1)).2.version + 1 }) ∧
        ((∀ e ∈ events, ¬ e.MovesHighlight) → c'.menu.index = i) := by
  have hstep : InStep c := hc ▸ (inStep_new keys stepsPerTick dice).run calls
  have hhigh : Highlights c := hc ▸ highlights_run_new keys stepsPerTick dice calls
  obtain ⟨r, hr, hsome⟩ := hstep.menu.mp hscreen
  obtain ⟨choice, hchoice⟩ := Option.isSome_iff_exists.mp hsome
  obtain ⟨hmode, hindex⟩ := keyUp_of_confirms hscreen hr key hconfirms
  have hup : StillOpen c (c.keyUp code key) :=
    stillOpen_apply (e := .keyUp code key) hscreen hr trivial
  obtain ⟨hrest, hmenu⟩ := stillOpen_run hup.screen (hup.running.trans hr) hkeys
  have hopen : StillOpen c c' := hc' ▸ hup.trans hrest
  have hhigh' : Highlights c' := by
    rw [hc']
    exact CalculatorCall.run_kept (P := Highlights) (fun _ call h => highlights_apply h call) events
      (highlights_keyUp hhigh code key)
  have hoptions : choice.options ≠ [] := by
    intro hnil
    have hlength := hhigh.labels r choice hr hchoice
    rw [hnil] at hlength
    exact hlabels (List.length_eq_zero_iff.mp hlength)
  obtain ⟨o, ho⟩ := hhigh'.option (hopen.running.trans hr) hchoice hoptions
  have htick := tick_eq_takeOption hhigh'.rate (hc' ▸ hrest.mode hmode) (hopen.running.trans hr)
    (hstep.awaiting_of_menu hr hscreen) hchoice ho
  rw [hopen.rate] at htick
  refine ⟨hmode, r, choice, o, hr, hchoice, ho, htick, fun hstill => ?_⟩
  rw [hc', hmenu hstill, hindex]

end Calculator

/-- A menu of two options with empty texts, and their labels. -/
def forked : Program :=
  ⟨[⟨1, .menu (.text 1 "") [⟨.text 1 "", "A"⟩, ⟨.text 1 "", "B"⟩]⟩, ⟨2, .label "A"⟩,
    ⟨3, .label "B"⟩], [("A", 1), ("B", 2)]⟩

theorem compile_forked : Program.compile "Menu(\"\",\"\",A,\"\",B)\nLbl A\nLbl B" = .ok forked := by
  cbv

/-- The program is loaded and the clock beats once. -/
def forkedCalls : List CalculatorCall := [.load "" "Menu(\"\",\"\",A,\"\",B)\nLbl A\nLbl B", .tick]

def forkedMenu : Calculator := ((Calculator.new ⟨[]⟩ 1 ⟨fun _ => 0, 0⟩).start "" forked).tick.2

theorem forkedMenu_eq :
    forkedMenu = CalculatorCall.run (.new ⟨[]⟩ 1 ⟨fun _ => 0, 0⟩) forkedCalls := by
  simp only [forkedMenu, CalculatorCall.run, forkedCalls, List.foldl_cons, List.foldl_nil,
    CalculatorCall.apply, Calculator.load, compile_forked, Except.map]

/-- Enter confirms the first option, and a key that has nothing to do with menus comes in between. -/
theorem tick_of_confirmed_forked :
    forkedMenu = CalculatorCall.run (.new ⟨[]⟩ 1 ⟨fun _ => 0, 0⟩) forkedCalls ∧
      forkedMenu.screen = .menu ∧ forkedMenu.menu.labels ≠ [] ∧ forkedMenu.Confirms "Enter" 0 ∧
      let c' := (forkedMenu.keyUp "Enter" "").keyDown "Backspace"
      ∃ r choice o, forkedMenu.running = some r ∧ r.state.choice = some choice ∧
        choice.options[0]? = some o ∧
        c'.tick = (true, { c'.takeOption r choice o with
          version := (c'.takeOption r choice o).version + 1 }) := by
  have hlabels : forkedMenu.menu.labels ≠ [] := List.ne_nil_of_length_pos (by decide)
  have hconfirms : forkedMenu.Confirms "Enter" 0 := .inl ⟨by decide, rfl⟩
  have hkeys : ∀ e ∈ [CalculatorCall.keyDown "Backspace"], e.IsKey := by
    intro e he
    rw [List.mem_singleton.mp he]
    trivial
  obtain ⟨-, r, choice, o, hr, hchoice, ho, htick, hindex⟩ :=
    Calculator.tick_of_confirmed ⟨[]⟩ 1 ⟨fun _ => 0, 0⟩ forkedCalls forkedMenu_eq rfl hlabels ""
      hconfirms hkeys rfl
  have hstill : ∀ e ∈ [CalculatorCall.keyDown "Backspace"], ¬ e.MovesHighlight := by
    intro e he
    rw [List.mem_singleton.mp he]
    simp [CalculatorCall.MovesHighlight]
  rw [hindex hstill] at ho
  exact ⟨forkedMenu_eq, rfl, hlabels, hconfirms, r, choice, o, hr, hchoice, ho, htick⟩

/-- The arrow between Enter and the next beat makes the program take the second option, although the
first one was confirmed. -/
theorem confirmed_option_not_taken :
    forkedMenu = CalculatorCall.run (.new ⟨[]⟩ 1 ⟨fun _ => 0, 0⟩) forkedCalls ∧
      forkedMenu.screen = .menu ∧ forkedMenu.menu.labels.length = 2 ∧
      forkedMenu.Confirms "Enter" 0 ∧ (forkedMenu.keyUp "Enter" "").mode = .run ∧
      ((forkedMenu.keyUp "Enter" "").keyDown "ArrowDown").tick.2.running.map (·.state.pc) =
        forked.labels.find? "B" ∧
      forked.labels.find? "B" ≠ forked.labels.find? "A" :=
  ⟨forkedMenu_eq, rfl, rfl, .inl ⟨by decide, rfl⟩, rfl, rfl, by decide⟩

end PocketBasic
