import PocketBasic.Console.View
import PocketBasic.Proofs.Calculator.Typing
import PocketBasic.Proofs.Screen.Grid
import PocketBasic.Text.Cluster

/-!
# The cursor of the line that is typed

While a program waits for input, the glyph behind the typed line is shown in reverse video. This holds as
long as the line stays on the screen. With the cursor behind the last column, a blank is added to its row.
-/

namespace PocketBasic

namespace Home

variable [Text.Typeface] {h : Home} {row col : Nat}

/-- Where a text ends that is drawn from a position on, if the screen had no last row. -/
def textEnd (row col : Nat) : List Char → Nat × Nat
  | [] => (row, col)
  | c :: cs =>
    let w := Text.cellWidth c
    if w = 0 then textEnd row col cs
    else if Row.columns < col + w then textEnd (row + 1) w cs
    else textEnd row (col + w) cs

theorem le_textEnd (row col : Nat) (cs : List Char) : row ≤ (textEnd row col cs).1 := by
  induction cs generalizing row col with
  | nil => exact Nat.le_refl row
  | cons c cs ih =>
    unfold textEnd
    simp only
    split
    · exact ih row col
    · split
      · exact Nat.le_trans (Nat.le_succ row) (ih (row + 1) _)
      · exact ih row _

theorem textEnd_le (hcol : col ≤ Row.columns) (cs : List Char) :
    (textEnd row col cs).2 ≤ Row.columns := by
  induction cs generalizing row col with
  | nil => exact hcol
  | cons c cs ih =>
    unfold textEnd
    simp only
    split
    · exact ih hcol
    · split
      · exact ih (Nat.le_trans (Text.cellWidth_le_two c) (by decide))
      · next hfit => exact ih (Nat.not_lt.mp hfit)

/-- On the screen the text ends at the same position, or below the last row if it does not fit. -/
theorem drawWrapped_end (h : Home) (hrow : row < height) (col : Nat) (cs : List Char) :
    (h.drawWrapped row col cs).2 =
      if (textEnd row col cs).1 < height then textEnd row col cs else (height, 0) := by
  induction cs generalizing h row col with
  | nil => exact (if_pos hrow).symm
  | cons c cs ih =>
    unfold drawWrapped textEnd
    simp only
    by_cases hzero : Text.cellWidth c = 0
    · rw [if_pos hzero, if_pos hzero]
      exact ih h hrow col
    · rw [if_neg hzero, if_neg hzero]
      by_cases hwrap : Row.columns < col + Text.cellWidth c
      · simp only [if_pos hwrap]
        by_cases hbelow : height ≤ row + 1
        · -- The glyph would stand below the last row.
          have hend := le_textEnd (row + 1) (Text.cellWidth c) cs
          have hlast : row + 1 = height := Nat.le_antisymm hrow hbelow
          rw [if_pos hbelow, if_neg (by omega), hlast]
        · rw [if_neg hbelow, ih _ (Nat.not_le.mp hbelow), Nat.zero_add]
      · simp only [if_neg hwrap]
        rw [if_neg (Nat.not_le.mpr hrow)]
        exact ih _ hrow _

end Home

namespace Calculator

open CalculatorCall (run)

variable [Text.Typeface] {c : Calculator}

theorem regular_perform (h : c.home.Regular) (s : Signal) : (c.perform s).home.Regular := by
  cases s with
  | display v => exact Home.regular_display h v
  | output row col v => exact Home.regular_output h row col v
  | clear => exact Home.regular_cleared
  | menu title options => exact h

theorem regular_foldl_perform (h : c.home.Regular) (signals : List Signal) :
    (signals.foldl perform c).home.Regular := by
  induction signals generalizing c with
  | nil => exact h
  | cons s signals ih => exact ih (regular_perform h s)

omit [Text.Typeface] in
theorem home_enter (c : Calculator) (status : Status) : (c.enter status).home = c.home := by
  cases status <;> rfl

theorem regular_step (h : c.home.Regular) (r : Running) : (c.step r).home.Regular := by
  unfold step
  rw [home_enter]
  apply regular_foldl_perform
  exact h

theorem regular_home_apply (h : c.home.Regular) (call : CalculatorCall) :
    (CalculatorCall.apply c call).home.Regular := by
  cases call with
  | load name source =>
    exact CalculatorCall.load_kept (P := fun c => c.home.Regular) h fun _ _ => Home.regular_cleared
  | tick =>
    exact tick_kept (P := fun c => c.home.Regular) (fun _ _ h => h)
      (steps_kept (P := fun c => c.home.Regular) (fun _ r h _ _ => regular_step h r) h _)
  | keyDown code =>
    obtain ⟨held, version, menu, input, hdown⟩ := keyDown_frame c code
    rw [CalculatorCall.apply, hdown]
    exact h
  | keyUp code key =>
    refine keyUp_kept (P := fun c => c.home.Regular) (fun _ _ h => h) (fun _ => h)
      (fun c _ h _ _ => ?_) (fun c r h _ _ => ?_)
    · obtain ⟨mode, menu, hkey⟩ := menuKey_frame c code
      rw [hkey]
      exact h
    · obtain ⟨state, mode, input, hkey⟩ := homeKey_frame c r code key
      rw [hkey]
      exact h

theorem regular_home_run (keys : KeyMap) (stepsPerTick : Int) (dice : Dice) (calls : List CalculatorCall) :
    (run (.new keys stepsPerTick dice) calls).home.Regular :=
  CalculatorCall.run_kept (P := fun c => c.home.Regular) (fun _ call h => regular_home_apply h call) calls
    Home.regular_cleared

/-- Where the typed line ends, if the screen had no last row. -/
def lineEnd (c : Calculator) : Nat × Nat := Home.textEnd c.home.cursorRow c.home.cursorCol c.input.toList

theorem spans_snapshot (h : c.home.Regular) :
    c.snapshot.lines.length = Home.height ∧
      ∀ line ∈ c.snapshot.lines, Text.cellCount line.toList = Row.columns :=
  (Home.regular_drawWrapped h _ _ _).spans

theorem snapshot_cursor (h : c.home.Regular) :
    (c.snapshot.cursorRow, c.snapshot.cursorCol) =
      if c.lineEnd.1 < Home.height then c.lineEnd else (Home.height, 0) :=
  Home.drawWrapped_end c.home (Nat.lt_of_le_of_lt h.cursorRow (by decide)) _ _

/-- While the typed line stays on the screen, the cursor stands behind it. -/
theorem snapshot_cursor_of_lt (h : c.home.Regular) (hfits : c.lineEnd.1 < Home.height) :
    c.snapshot.cursorRow = c.lineEnd.1 ∧ c.snapshot.cursorCol = c.lineEnd.2 := by
  have hcursor := snapshot_cursor h
  rw [if_pos hfits] at hcursor
  exact Prod.ext_iff.mp hcursor

/-- When it has run off the bottom, the cursor stands below the last row. -/
theorem snapshot_cursor_of_le (h : c.home.Regular) (hbelow : Home.height ≤ c.lineEnd.1) :
    c.snapshot.cursorRow = Home.height := by
  have hcursor := snapshot_cursor h
  rw [if_neg (Nat.not_lt.mpr hbelow)] at hcursor
  exact congrArg Prod.fst hcursor

end Calculator

namespace Console

open Text (cellCount)

def Line.reversed (l : Line) : List Char := (l.filter Span.reversed).flatMap Span.text

namespace Panel

variable [Text.Typeface] {col pos : Nat} {cs : List Char} {s : Snapshot} {line : String}

theorem splitAtCursor_of_lt (hpos : col < pos) (cs : List Char) :
    splitAtCursor col pos cs = ([], [], cs) := by
  induction cs generalizing pos with
  | nil => rfl
  | cons c cs ih =>
    have hbehind : ¬ pos + Text.cellWidth c ≤ col := by omega
    unfold splitAtCursor
    simp only [ih (Nat.lt_add_right _ hpos), if_neg hbehind, if_neg (Nat.not_le.mpr hpos)]

theorem splitAtCursor_of_le (hcol : pos + cellCount cs ≤ col) :
    splitAtCursor col pos cs = (cs, [], []) := by
  induction cs generalizing pos with
  | nil => rfl
  | cons c cs ih =>
    rw [cellCount] at hcol
    have hbefore : pos + Text.cellWidth c ≤ col := by omega
    unfold splitAtCursor
    simp only [ih (show pos + Text.cellWidth c + cellCount cs ≤ col by omega), if_pos hbefore]

/-- Of a text that reaches over the column, one glyph is split off. -/
theorem splitAtCursor_of_mem (hpos : pos ≤ col) (hcol : col < pos + cellCount cs) :
    ∃ before glyph after, splitAtCursor col pos cs = (before, [glyph], after) ∧
      cs = before ++ glyph :: after := by
  induction cs generalizing pos with
  | nil =>
    rw [cellCount] at hcol
    omega
  | cons c cs ih =>
    rw [cellCount] at hcol
    unfold splitAtCursor
    by_cases hbefore : pos + Text.cellWidth c ≤ col
    · obtain ⟨before, glyph, after, hsplit, rfl⟩ := ih hbefore (by omega)
      simp only [hsplit, if_pos hbefore]
      exact ⟨c :: before, glyph, after, rfl, rfl⟩
    · simp only [splitAtCursor_of_lt (Nat.not_le.mp hbefore) cs, if_neg hbefore, if_pos hpos]
      exact ⟨[], c, cs, rfl, rfl⟩

theorem withCursor_of_lt (hcol : col < cellCount line.toList) :
    (withCursor line col).plain = line.toList ∧ (withCursor line col).reversed.length = 1 := by
  obtain ⟨before, glyph, after, hsplit, hline⟩ :=
    splitAtCursor_of_mem (Nat.zero_le col) (show col < 0 + cellCount line.toList by omega)
  unfold withCursor
  simp only [hsplit]
  rw [hline]
  simp [Line.plain, Line.reversed]

theorem withCursor_of_le (hcol : cellCount line.toList ≤ col) :
    (withCursor line col).plain = line.toList ++ [' '] ∧ (withCursor line col).reversed = [' '] := by
  have hsplit := splitAtCursor_of_le (show 0 + cellCount line.toList ≤ col by omega)
  unfold withCursor
  simp only [hsplit]
  simp [Line.plain, Line.reversed]

def plainBody (s : Snapshot) : List Line := s.lines.map fun line => [⟨line.toList, false⟩]

omit [Text.Typeface] in
theorem reversed_plainBody (s : Snapshot) : ∀ line ∈ plainBody s, line.reversed = [] := by
  intro line hline
  obtain ⟨text, -, rfl⟩ := List.mem_map.mp hline
  rfl

theorem cellCount_plainBody (hlines : ∀ line ∈ s.lines, cellCount line.toList = Row.columns) :
    ∀ line ∈ plainBody s, cellCount line.plain = Row.columns := by
  intro line hline
  obtain ⟨text, htext, rfl⟩ := List.mem_map.mp hline
  simpa [Line.plain] using hlines text htext

theorem getElem?_homeBody (hcursor : s.showCursor = true) (i : Nat) :
    (homeBody s)[i]? =
      if i = s.cursorRow then s.lines[i]?.map (withCursor · s.cursorCol) else (plainBody s)[i]? := by
  unfold homeBody plainBody
  rw [List.getElem?_map, List.getElem?_zipIdx, Option.map_map, List.getElem?_map]
  by_cases hi : i = s.cursorRow
  · rw [if_pos hi]
    exact congrFun (congrArg Option.map (funext fun line => by simp [hcursor, hi])) _
  · rw [if_neg hi]
    exact congrFun (congrArg Option.map (funext fun line => by simp [hi])) _

theorem homeBody_of_le (hcursor : s.showCursor = true) (hrow : s.lines.length ≤ s.cursorRow) :
    homeBody s = plainBody s := by
  apply List.ext_getElem?
  intro i
  rw [getElem?_homeBody hcursor]
  split
  · next hi =>
    have hnone : s.lines[i]? = none := List.getElem?_eq_none (hi ▸ hrow)
    rw [plainBody, List.getElem?_map, hnone]
    rfl
  · rfl

/-- The cursor is shown on its row, and nothing else is in reverse video. -/
theorem homeBody_of_getElem? (hcursor : s.showCursor = true) (hline : s.lines[s.cursorRow]? = some line) :
    homeBody s = (plainBody s).take s.cursorRow ++
      withCursor line s.cursorCol :: (plainBody s).drop (s.cursorRow + 1) := by
  obtain ⟨hrow, -⟩ := List.getElem?_eq_some_iff.mp hline
  have hlength : s.cursorRow < (plainBody s).length := by
    rwa [plainBody, List.length_map]
  have hset : homeBody s = (plainBody s).set s.cursorRow (withCursor line s.cursorCol) := by
    apply List.ext_getElem?
    intro i
    rw [getElem?_homeBody hcursor, List.getElem?_set]
    by_cases hi : i = s.cursorRow
    · rw [if_pos hi, if_pos hi.symm, if_pos hlength, hi, hline]
      rfl
    · rw [if_neg hi, if_neg (Ne.symm hi)]
  rw [hset, List.set_eq_take_append_cons_drop, if_pos hlength]

theorem reversed_homeBody (hcursor : s.showCursor = true) (hline : s.lines[s.cursorRow]? = some line) :
    (homeBody s).flatMap Line.reversed = (withCursor line s.cursorCol).reversed := by
  have hbefore : ((plainBody s).take s.cursorRow).flatMap Line.reversed = [] :=
    List.flatMap_eq_nil_iff.mpr fun l hl => reversed_plainBody s l (List.mem_of_mem_take hl)
  have hafter : ((plainBody s).drop (s.cursorRow + 1)).flatMap Line.reversed = [] :=
    List.flatMap_eq_nil_iff.mpr fun l hl => reversed_plainBody s l (List.mem_of_mem_drop hl)
  rw [homeBody_of_getElem? hcursor hline, List.flatMap_append, List.flatMap_cons, hbefore, hafter,
    List.nil_append, List.append_nil]

/-- With the cursor on one of the rows, one glyph is in reverse video. All rows keep their width, but behind
the last column there is no glyph and a blank is added. -/
theorem homeBody_of_lt (hcursor : s.showCursor = true)
    (hlines : ∀ line ∈ s.lines, cellCount line.toList = Row.columns)
    (hrow : s.cursorRow < s.lines.length) :
    ((homeBody s).flatMap Line.reversed).length = 1 ∧
      (Row.columns ≤ s.cursorCol → (homeBody s).flatMap Line.reversed = [' ']) ∧
      ∀ i line, (homeBody s)[i]? = some line → cellCount line.plain =
        if i = s.cursorRow ∧ Row.columns ≤ s.cursorCol then Row.columns + 1 else Row.columns := by
  have hline : s.lines[s.cursorRow]? = some s.lines[s.cursorRow] := List.getElem?_eq_getElem hrow
  have hwidth : cellCount s.lines[s.cursorRow].toList = Row.columns := hlines _ (List.getElem_mem hrow)
  have hreversed := reversed_homeBody hcursor hline
  -- The row of the cursor, as it is shown.
  have hshown : (withCursor s.lines[s.cursorRow] s.cursorCol).reversed.length = 1 ∧
      (Row.columns ≤ s.cursorCol → (withCursor s.lines[s.cursorRow] s.cursorCol).reversed = [' ']) ∧
      cellCount (withCursor s.lines[s.cursorRow] s.cursorCol).plain =
        if Row.columns ≤ s.cursorCol then Row.columns + 1 else Row.columns := by
    rcases Nat.lt_or_ge s.cursorCol Row.columns with hlt | hge
    · obtain ⟨hplain, hone⟩ := withCursor_of_lt (hwidth ▸ hlt)
      rw [hplain, hwidth, if_neg (Nat.not_le.mpr hlt)]
      exact ⟨hone, fun hge => absurd hlt (Nat.not_lt.mpr hge), rfl⟩
    · obtain ⟨hplain, hblank⟩ := withCursor_of_le (hwidth ▸ hge)
      have hwide : cellCount [' '] = 1 := Text.cellWidth_blank
      rw [hplain, hblank, Text.cellCount_append, hwidth, hwide, if_pos hge]
      exact ⟨rfl, fun _ => rfl, rfl⟩
  rw [hreversed]
  refine ⟨hshown.1, hshown.2.1, fun i line hi => ?_⟩
  rw [getElem?_homeBody hcursor] at hi
  by_cases hat : i = s.cursorRow
  · rw [if_pos hat, hat, hline, Option.map_some, Option.some.injEq] at hi
    rw [← hi, hshown.2.2]
    simp only [hat, true_and]
  · rw [if_neg hat] at hi
    rw [if_neg fun h => hat h.1]
    exact cellCount_plainBody hlines line (List.mem_of_getElem? hi)

variable {c : Calculator}

theorem body_of_input (h : c.InStep) (hmode : c.mode = .input) (showHelp : Bool) :
    body ⟨c, showHelp⟩ = homeBody c.snapshot := by
  have hscreen : c.snapshot.screen = .home := (h.waiting hmode).1
  unfold body bodyOf
  simp only [hscreen]

theorem homeBody_of_below (h : c.home.Regular) (hmode : c.mode = .input)
    (hbelow : Home.height ≤ c.lineEnd.1) : homeBody c.snapshot = plainBody c.snapshot := by
  apply homeBody_of_le (decide_eq_true hmode)
  rw [(Calculator.spans_snapshot h).1, Calculator.snapshot_cursor_of_le h hbelow]

/-- Whatever program asks, with whatever prompt, and whatever has been typed, the home screen is drawn as
eight rows. While the typed line stays on the screen, one glyph of them is in reverse video, and all rows
take sixteen cells; only with the cursor behind the last column the row of the cursor takes one more, a
blank in reverse video. Once the line runs off the bottom, no glyph is in reverse video, and all rows take
sixteen cells. -/
theorem cursor_shown (keys : KeyMap) (stepsPerTick : Int) (dice : Dice) (calls : List CalculatorCall)
    (showHelp : Bool) :
    let c := CalculatorCall.run (.new keys stepsPerTick dice) calls
    c.mode = .input →
      let rows := body ⟨c, showHelp⟩
      rows.length = Home.height ∧
        (c.lineEnd.1 < Home.height →
          (rows.flatMap Line.reversed).length = 1 ∧
          (c.lineEnd.2 = Row.columns → rows.flatMap Line.reversed = [' ']) ∧
          ∀ i row, rows[i]? = some row → cellCount row.plain =
            if i = c.lineEnd.1 ∧ c.lineEnd.2 = Row.columns then Row.columns + 1 else Row.columns) ∧
        (Home.height ≤ c.lineEnd.1 →
          rows.flatMap Line.reversed = [] ∧ ∀ row ∈ rows, cellCount row.plain = Row.columns) := by
  intro c hmode rows
  have hhome : c.home.Regular := Calculator.regular_home_run keys stepsPerTick dice calls
  have hrows : rows = homeBody c.snapshot :=
    body_of_input (Calculator.inStep_run_new keys stepsPerTick dice calls) hmode showHelp
  obtain ⟨hlength, hlines⟩ := Calculator.spans_snapshot hhome
  have hcount : rows.length = Home.height := by
    rw [hrows, homeBody, List.length_map, List.length_zipIdx, hlength]
  rcases Nat.lt_or_ge c.lineEnd.1 Home.height with hfits | hbelow
  · obtain ⟨hrow, hcol⟩ := Calculator.snapshot_cursor_of_lt hhome hfits
    have hle : c.lineEnd.2 ≤ Row.columns := Home.textEnd_le hhome.cursorCol _
    have hlast : Row.columns ≤ c.snapshot.cursorCol ↔ c.lineEnd.2 = Row.columns := by
      rw [hcol]
      exact ⟨Nat.le_antisymm hle, fun heq => heq ▸ Nat.le_refl _⟩
    have hshown := homeBody_of_lt (s := c.snapshot) (decide_eq_true hmode) hlines
      (hlength ▸ hrow ▸ hfits)
    simp only [hlast, hrow, ← hrows] at hshown
    exact ⟨hcount, fun _ => hshown, fun hbelow => absurd hfits (Nat.not_lt.mpr hbelow)⟩
  · have hplain : rows = plainBody c.snapshot := hrows.trans (homeBody_of_below hhome hmode hbelow)
    refine ⟨hcount, fun hfits => absurd hfits (Nat.not_lt.mpr hbelow), fun _ => ?_⟩
    rw [hplain]
    exact ⟨List.flatMap_eq_nil_iff.mpr (reversed_plainBody c.snapshot), cellCount_plainBody hlines⟩

end Panel

end Console

open Console

/-- The key of a letter goes down and up so many times. -/
def letters (n : Nat) : List CalculatorCall :=
  (List.replicate n [CalculatorCall.keyDown "KeyA", .keyUp "KeyA" "A"]).flatten

theorem after_letters (line : String) (n : Nat) :
    (Typing.after ⟨"", line⟩ (letters n)).line.toList = line.toList ++ List.replicate n 'A' := by
  induction n generalizing line with
  | zero => simp [letters, Typing.after]
  | succ n ih =>
    have htyped : Typing.after ⟨"", line⟩ (letters (n + 1)) = Typing.after ⟨"", line ++ "A"⟩ (letters n) :=
      rfl
    rw [htyped, ih, String.toList_append, List.append_assoc, List.replicate_succ]
    rfl

theorem typesOn_letters (n : Nat) : ∀ call ∈ letters n, call.TypesOn := by
  intro call hcall
  obtain ⟨pair, hpair, hmem⟩ := List.mem_flatten.mp hcall
  rw [List.eq_of_mem_replicate hpair] at hmem
  rcases List.mem_pair.mp hmem with rfl | rfl
  · trivial
  · rfl

/-- The program asks, and so many letters are typed. -/
def lettered (n : Nat) : Calculator := CalculatorCall.run askingNew (askingHistory ++ letters n)

theorem lettered_eq (n : Nat) :
    (lettered n).mode = .input ∧ (lettered n).home = (askingNew.start "" asking).tick.2.home ∧
      (lettered n).input.toList = List.replicate n 'A' := by
  let c := (askingNew.start "" asking).tick.2
  have hrun : lettered n = CalculatorCall.run c (letters n) := by
    rw [lettered, CalculatorCall.run, List.foldl_append]
    exact congrArg (List.foldl CalculatorCall.apply · (letters n)) run_asking
  obtain ⟨r, hr⟩ : ∃ r, c.running = some r := ⟨_, rfl⟩
  obtain ⟨number, version, htyped⟩ :=
    (Calculator.hasTyped_self hr (show c.mode = .input from rfl) rfl).run (typesOn_letters n)
  rw [hrun, htyped]
  exact ⟨rfl, rfl, after_letters "" n⟩

theorem lineEnd_lettered (n : Nat) : (lettered n).lineEnd = Home.textEnd 0 1 (List.replicate n 'A') := by
  obtain ⟨-, hhome, hinput⟩ := lettered_eq n
  have hcursor : (askingNew.start "" asking).tick.2.home.cursorRow = 0 ∧
      (askingNew.start "" asking).tick.2.home.cursorCol = 1 := by
    decide +kernel
  rw [Calculator.lineEnd, hhome, hinput, hcursor.1, hcursor.2]

/-- After two letters there is one cursor, and no row is wider than the others. -/
theorem cursor_shown_lettered :
    (lettered 2).mode = .input ∧ (lettered 2).lineEnd = (0, 3) ∧
      let rows : List Line := Panel.body ⟨lettered 2, false⟩
      rows.length = 8 ∧ (rows.flatMap Line.reversed).length = 1 ∧
        ∀ row ∈ rows, Text.cellCount row.plain = 16 := by
  have hmode := (lettered_eq 2).1
  have hend : (lettered 2).lineEnd = (0, 3) := by
    rw [lineEnd_lettered]
    decide
  obtain ⟨hlength, hfits, -⟩ := Panel.cursor_shown ⟨[("Digit4", 92)]⟩ 1 ⟨fun _ => 0, 0⟩
    (askingHistory ++ letters 2) false hmode
  have hrow : (lettered 2).lineEnd.1 < Home.height := by
    rw [hend]
    decide
  obtain ⟨hone, -, hwidths⟩ := hfits hrow
  refine ⟨hmode, hend, hlength, hone, fun row hmem => ?_⟩
  obtain ⟨i, hi⟩ := List.mem_iff_getElem?.mp hmem
  have hcol : ¬ (i = (lettered 2).lineEnd.1 ∧ (lettered 2).lineEnd.2 = Row.columns) := by
    rw [hend]
    exact fun h => absurd h.2 (by decide)
  exact (hwidths i row hi).trans (if_neg hcol)

/-- With the first row full, it is seventeen cells wide. When the whole screen is full, there is no cursor. -/
theorem cursor_leaves_grid :
    (lettered 15).mode = .input ∧
      (∃ row ∈ Panel.body ⟨lettered 15, false⟩, Text.cellCount row.plain = 17) ∧
      (lettered 128).mode = .input ∧
      (Panel.body ⟨lettered 128, false⟩).flatMap Line.reversed = [] := by
  have hmode (n : Nat) : (lettered n).mode = .input := (lettered_eq n).1
  have hhome (n : Nat) : (lettered n).home.Regular :=
    Calculator.regular_home_run _ _ _ (askingHistory ++ letters n)
  have hbody (n : Nat) : Panel.body ⟨lettered n, false⟩ = Panel.homeBody (lettered n).snapshot :=
    Panel.body_of_input (Calculator.inStep_run_new _ _ _ (askingHistory ++ letters n)) (hmode n) false
  refine ⟨hmode 15, ?_, hmode 128, ?_⟩
  · have hend : (lettered 15).lineEnd = (0, 16) := by
      rw [lineEnd_lettered]
      decide
    obtain ⟨hrow, hcol⟩ := Calculator.snapshot_cursor_of_lt (hhome 15) (hend ▸ by decide)
    obtain ⟨hlength, hlines⟩ := Calculator.spans_snapshot (hhome 15)
    rw [hend] at hrow hcol
    have honscreen : (lettered 15).snapshot.cursorRow < (lettered 15).snapshot.lines.length := by
      rw [hlength, hrow]
      decide
    obtain ⟨-, -, hwidths⟩ := Panel.homeBody_of_lt (decide_eq_true (hmode 15)) hlines honscreen
    have hfirst : 0 < (Panel.homeBody (lettered 15).snapshot).length := by
      rw [Panel.homeBody, List.length_map, List.length_zipIdx, hlength]
      decide
    rw [hbody]
    refine ⟨_, List.getElem_mem hfirst, ?_⟩
    rw [hwidths 0 _ (List.getElem?_eq_getElem hfirst), hrow, hcol]
    rfl
  · have hbelow : Home.height ≤ (lettered 128).lineEnd.1 := by
      rw [lineEnd_lettered]
      decide +kernel
    rw [hbody, Panel.homeBody_of_below (hhome 128) (hmode 128) hbelow]
    exact List.flatMap_eq_nil_iff.mpr (Panel.reversed_plainBody _)

end PocketBasic
