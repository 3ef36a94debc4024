import PocketBasic.Proofs.Screen.Tiling

/-!
# The grid of the home screen

`Regular` says that every row is tiled and that the cursor stands in front of the last row. Each call that
draws keeps a screen regular, so it is regular after any sequence of calls, and so is a copy on which a
text has been drawn over. Every line of such a screen takes sixteen cells.
-/

namespace PocketBasic

inductive DrawCall where
  | display (v : Value)
  | output (row col : Int) (v : Value)
  | clear

variable [Text.Typeface]

namespace DrawCall

def apply (h : Home) : DrawCall → Home
  | .display v => h.display v
  | .output row col v => h.output row col v
  | .clear => .cleared

def run (calls : List DrawCall) : Home := calls.foldl apply .cleared

end DrawCall

namespace Home

variable {h : Home}

structure Regular (h : Home) : Prop where
  rows : ∀ r ∈ h.rows, r.Tiled
  cursorRow : h.cursorRow ≤ height - 2
  cursorCol : h.cursorCol ≤ Row.columns

/-- The screen is shown as eight lines, each as wide as a row. -/
def Spans (h : Home) : Prop :=
  h.lines.length = height ∧ ∀ line ∈ h.lines, Text.cellCount line.toList = Row.columns

theorem Regular.spans (hr : h.Regular) : h.Spans := by
  refine ⟨by simp [lines, height], fun line hline => ?_⟩
  obtain ⟨r, hmem, rfl⟩ := List.mem_map.mp hline
  exact (hr.rows r (Vector.mem_toList_iff.mp hmem)).cellCount_text

theorem regular_cleared : cleared.Regular where
  rows r hr := by
    rw [Vector.eq_of_mem_replicate hr]
    exact Row.tiled_blank
  cursorRow := Nat.zero_le _
  cursorCol := Nat.zero_le _

theorem tiled_writeRow (hrows : ∀ r ∈ h.rows, r.Tiled) (row col : Nat) (cs : List Char) :
    ∀ r ∈ (h.writeRow row col cs).rows, r.Tiled := by
  unfold writeRow
  split
  · next r hr =>
    intro r' hr'
    have hlist : r' ∈ h.rows.toList.set row (r.write col cs) := by
      rw [← Vector.toList_setIfInBounds]
      exact Vector.mem_toList_iff.mpr hr'
    rcases List.mem_or_eq_of_mem_set hlist with hold | rfl
    · exact hrows r' (Vector.mem_toList_iff.mp hold)
    · exact Row.tiled_write (hrows r (Vector.mem_of_getElem? hr)) col cs
  · exact hrows

theorem tiled_scroll (hrows : ∀ r ∈ h.rows, r.Tiled) : ∀ r ∈ h.scroll.rows, r.Tiled := by
  intro r hr
  have hlist : r ∈ h.rows.toList.drop 1 ∨ r = Row.blank := by
    have hpush := Vector.mem_push.mp hr
    rwa [← Vector.mem_toList_iff, Vector.toList_drop] at hpush
  rcases hlist with hold | rfl
  · exact hrows r (Vector.mem_toList_iff.mp (List.mem_of_mem_drop hold))
  · exact Row.tiled_blank

theorem regular_scroll (hrows : ∀ r ∈ h.rows, r.Tiled) (hrow : h.cursorRow ≤ height - 1)
    (hcol : h.cursorCol ≤ Row.columns) : h.scroll.Regular where
  rows := tiled_scroll hrows
  cursorRow := Nat.sub_le_sub_right hrow 1
  cursorCol := by
    unfold scroll
    split
    · exact hcol
    · exact Nat.zero_le _

omit [Text.Typeface] in
theorem lt_of_firstBlankRow? {row : Nat} (hblank : h.firstBlankRow? = some row) : row < height := by
  have hlt := (List.findIdx?_eq_some_iff_getElem.mp hblank).1
  simpa [height] using hlt

/-- Writes a line on a row and puts the cursor behind it. Writing on the last row scrolls. -/
def showLine (h : Home) (row : Nat) (line : String) : Home :=
  let shown := String.ofList (Text.dropEndWhile (· = ' ') line.toList)
  let written := { h.writeRow row 0 line.toList with
    cursorRow := row
    cursorCol := min (Text.textWidth shown) Row.columns }
  if row = height - 1 then written.scroll else written

theorem display_eq (h : Home) (v : Value) :
    h.display v = match h.firstBlankRow? with
      | some row => h.showLine row (alignedText v)
      | none => h.scroll.showLine (height - 1) (alignedText v) := by
  unfold display
  cases h.firstBlankRow? with
  | some row => rfl
  | none => rfl

theorem regular_showLine (hrows : ∀ r ∈ h.rows, r.Tiled) {row : Nat} (hrow : row < height)
    (line : String) : (h.showLine row line).Regular := by
  have hwritten := tiled_writeRow hrows row 0 line.toList
  unfold showLine
  by_cases hlast : row = height - 1
  · simp only [if_pos hlast]
    exact regular_scroll hwritten (Nat.le_of_lt_succ hrow) (Nat.min_le_right _ _)
  · simp only [if_neg hlast]
    have hle : row ≤ height - 2 := by
      unfold height at hrow hlast ⊢
      omega
    exact ⟨hwritten, hle, Nat.min_le_right _ _⟩

theorem regular_display (hr : h.Regular) (v : Value) : (h.display v).Regular := by
  rw [display_eq]
  cases hblank : h.firstBlankRow? with
  | some row => exact regular_showLine hr.rows (lt_of_firstBlankRow? hblank) (alignedText v)
  | none => exact regular_showLine (tiled_scroll hr.rows) (by decide) (alignedText v)

theorem regular_writeRow (hr : h.Regular) (row col : Nat) (cs : List Char) :
    (h.writeRow row col cs).Regular := by
  refine ⟨tiled_writeRow hr.rows row col cs, ?_, ?_⟩
  · unfold writeRow
    split
    · exact hr.cursorRow
    · exact hr.cursorRow
  · unfold writeRow
    split
    · exact hr.cursorCol
    · exact hr.cursorCol

theorem regular_output (hr : h.Regular) (row col : Int) (v : Value) :
    (h.output row col v).Regular := by
  unfold output
  split
  · exact regular_writeRow hr _ _ _
  · exact hr

theorem regular_drawWrapped (hr : h.Regular) (row col : Nat) (cs : List Char) :
    (h.drawWrapped row col cs).1.Regular := by
  induction cs generalizing h row col with
  | nil => exact hr
  | cons c cs ih =>
    unfold drawWrapped
    by_cases hzero : Text.cellWidth c = 0
    · rw [if_pos hzero]
      exact ih hr row col
    · rw [if_neg hzero]
      -- The position after a wrap, if there is one.
      generalize (if Row.columns < col + Text.cellWidth c then (row + 1, 0) else (row, col)) = place
      obtain ⟨row', col'⟩ := place
      by_cases hbelow : height ≤ row'
      · simp only [hbelow, if_true]
        exact hr
      · simp only [hbelow, if_false]
        exact ih (regular_writeRow hr row' col' [c]) row' (col' + Text.cellWidth c)

theorem regular_apply (hr : h.Regular) (call : DrawCall) : (call.apply h).Regular := by
  cases call with
  | display v => exact regular_display hr v
  | output row col v => exact regular_output hr row col v
  | clear => exact regular_cleared

theorem regular_run (calls : List DrawCall) : (DrawCall.run calls).Regular := by
  have hrun (h : Home) (hr : h.Regular) : (calls.foldl DrawCall.apply h).Regular := by
    induction calls generalizing h with
    | nil => exact hr
    | cons call calls ih => exact ih (call.apply h) (regular_apply hr call)
  exact hrun cleared regular_cleared

/-- Whatever is drawn, no glyph is torn and every line takes sixteen cells. The same holds for a text
drawn over a copy of the screen from any position. -/
theorem regular_and_spans_run (calls : List DrawCall) :
    ((DrawCall.run calls).Regular ∧ (DrawCall.run calls).Spans) ∧
      ∀ (row col : Nat) (text : String),
        ((DrawCall.run calls).drawWrapped row col text.toList).1.Regular ∧
          ((DrawCall.run calls).drawWrapped row col text.toList).1.Spans := by
  have hr := regular_run calls
  refine ⟨⟨hr, hr.spans⟩, fun row col text => ?_⟩
  have hdrawn := regular_drawWrapped hr row col text.toList
  exact ⟨hdrawn, hdrawn.spans⟩

end Home

end PocketBasic
