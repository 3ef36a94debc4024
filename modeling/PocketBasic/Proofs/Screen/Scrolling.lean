import Mathlib.Data.List.DropRight
import PocketBasic.Proofs.Screen.Overwriting
import PocketBasic.Text.Cluster

/-!
# The screen as a log

Values displayed on a cleared screen are a log: each one is a new row below the others, the oldest row goes
when there are eight, and blank rows at the end do not count. The screen looks for its first blank row
instead. Since no row of the log is blank, this row is always the one below the log.
-/

namespace PocketBasic

namespace Row

theorem isBlank_blank : blank.isBlank = true := by
  decide

theorem eq_blank_of_isBlank {r : Row} (h : r.isBlank = true) : r = blank := by
  have hcells : ∀ x ∈ r.toList, x = Cell.blank := fun x hx =>
    of_decide_eq_true (List.all_eq_true.mp h x hx)
  apply Vector.toList_inj.mp
  rw [blank, Vector.toList_replicate]
  exact List.eq_replicate_iff.mpr ⟨Vector.length_toList, hcells⟩

end Row

namespace Home

/-! ### Logs -/

section Logs

variable {h : Home} {log : List Row} {r : Row}

/-- The log with a new row. Of eight rows the oldest is dropped, and blank rows at the end are removed. -/
def record (log : List Row) (r : Row) : List Row :=
  let longer := log ++ [r]
  (if longer.length = height then longer.tail else longer).rdropWhile Row.isBlank

/-- Blank rows follow up to the height of the screen. -/
def padded (log : List Row) : List Row := log ++ List.replicate (height - log.length) Row.blank

theorem padded_concat_blank (hlog : log.length < height) : padded (log ++ [Row.blank]) = padded log := by
  obtain ⟨n, hn⟩ := Nat.exists_eq_add_of_lt hlog
  have hlonger : height - (log ++ [Row.blank]).length = n := by
    rw [List.length_append, List.length_singleton]
    omega
  have hshorter : height - log.length = n + 1 := by omega
  rw [padded, padded, hlonger, hshorter, List.replicate_succ, List.append_assoc, List.singleton_append]

theorem padded_rdropWhile (hlog : log.length ≤ height) :
    padded (log.rdropWhile Row.isBlank) = padded log := by
  induction log using List.reverseRecOn with
  | nil => rfl
  | append_singleton log r ih =>
    rw [List.length_append, List.length_singleton] at hlog
    by_cases hblank : r.isBlank = true
    · rw [List.rdropWhile_concat_pos _ _ _ hblank, Row.eq_blank_of_isBlank hblank,
        padded_concat_blank hlog]
      exact ih (Nat.le_of_succ_le hlog)
    · rw [List.rdropWhile_concat_neg _ _ _ hblank]

theorem padded_of_length (hlog : log.length = height) : padded log = log := by
  simp [padded, hlog]

/-- The screen shows a log of rows that are not blank. -/
structure Shows (h : Home) (log : List Row) : Prop where
  rows : h.rows.toList = padded log
  written : ∀ r ∈ log, r.isBlank = false
  short : log.length < height

theorem shows_cleared : cleared.Shows [] where
  rows := Vector.toList_replicate
  written r hr := by cases hr
  short := by decide

theorem Shows.firstBlankRow? (hs : h.Shows log) : h.firstBlankRow? = some log.length := by
  have hlt : log.length < h.rows.toList.length := by
    rw [Vector.length_toList]
    exact hs.short
  refine List.findIdx?_eq_some_iff_getElem.mpr ⟨hlt, ?_, fun i hi => ?_⟩
  · simp only [hs.rows, padded, List.getElem_append_right (Nat.le_refl _), List.getElem_replicate]
    exact Row.isBlank_blank
  · simp only [hs.rows, padded, List.getElem_append_left hi]
    rw [hs.written _ (List.getElem_mem hi)]
    exact Bool.false_ne_true

theorem rows_scroll (h : Home) : h.scroll.rows.toList = h.rows.toList.tail ++ [Row.blank] := by
  rw [scroll, Vector.toList_push, Vector.toList_drop, List.drop_one]

/-- A new row follows the log, which loses its oldest row if there would be eight. -/
theorem record_eq (hlog : log.length < height) (r : Row) :
    record log r = (log.drop (log.length - (height - 2)) ++ [r]).rdropWhile Row.isBlank := by
  unfold record
  by_cases hfull : (log ++ [r]).length = height
  · have hne : log ≠ [] := by
      rintro rfl
      cases hfull
    have hoverflow : log.length - (height - 2) = 1 := by
      rw [List.length_append, List.length_singleton] at hfull
      have height_eq : height = 8 := rfl
      omega
    simp only [hfull, if_true]
    rw [List.tail_append_of_ne_nil hne, hoverflow, List.drop_one]
  · have hroom : log.length - (height - 2) = 0 := by
      rw [List.length_append, List.length_singleton] at hfull
      omega
    simp only [hfull, if_false]
    rw [hroom, List.drop_zero]

theorem written_rdropWhile {kept : List Row} (hkept : ∀ r ∈ kept, r.isBlank = false) (r : Row) :
    ∀ r' ∈ (kept ++ [r]).rdropWhile Row.isBlank, r'.isBlank = false := by
  intro r' hr'
  by_cases hblank : r.isBlank = true
  · rw [List.rdropWhile_concat_pos _ _ _ hblank] at hr'
    exact hkept r' ((List.rdropWhile_prefix _ _).mem hr')
  · rw [List.rdropWhile_concat_neg _ _ _ hblank] at hr'
    rcases List.mem_append.mp hr' with hold | hnew
    · exact hkept r' hold
    · rw [List.mem_singleton.mp hnew]
      exact Bool.eq_false_iff.mpr hblank

theorem record_of_written (hlog : log.length < height) (hr : r.isBlank = false) :
    record log r = (log ++ [r]).drop (log.length - (height - 2)) := by
  rw [record_eq hlog, List.rdropWhile_concat_neg _ _ _ (Bool.eq_false_iff.mp hr),
    List.drop_append_of_le_length (Nat.sub_le _ _)]

/-- As long as no row is blank, the log is the last rows of all. -/
theorem foldl_record (hlog : log.length < height) {rows : List Row}
    (hrows : ∀ r ∈ rows, r.isBlank = false) :
    rows.foldl record log = (log ++ rows).drop ((log ++ rows).length - (height - 1)) := by
  have height_eq : height = 8 := rfl
  induction rows generalizing log with
  | nil =>
    have hfits : (log ++ []).length - (height - 1) = 0 := by
      rw [List.append_nil]
      omega
    rw [hfits, List.drop_zero, List.append_nil]
    rfl
  | cons r rows ih =>
    have hrecord := record_of_written hlog (hrows r List.mem_cons_self)
    have hshort : (record log r).length < height := by
      rw [hrecord, List.length_drop, List.length_append, List.length_singleton]
      omega
    have hle : log.length - (height - 2) ≤ (log ++ [r]).length := by
      rw [List.length_append, List.length_singleton]
      omega
    rw [List.foldl_cons, ih hshort fun r' hr' => hrows r' (List.mem_cons_of_mem r hr'), hrecord,
      ← List.drop_append_of_le_length hle, List.drop_drop, List.append_assoc, List.singleton_append]
    congr 1
    simp only [List.length_append, List.length_cons, List.length_drop]
    omega

end Logs

/-! ### Values as rows -/

section Values

variable [Text.Typeface] {h : Home} {log : List Row}

/-- The line of a value: a text that fits stands at the left, any other value that fits at the right, and of
one that is too wide as much is kept as leaves room for the ellipsis. -/
structure LinesUp (v : Value) (line : String) : Prop where
  left : Text.textWidth v.text ≤ Row.columns → v.isString = true →
    line = v.text ++ Text.spaces (Row.columns - Text.textWidth v.text)
  right : Text.textWidth v.text ≤ Row.columns → v.isString = false →
    line = Text.spaces (Row.columns - Text.textWidth v.text) ++ v.text
  cut : Row.columns < Text.textWidth v.text →
    line = Text.truncate v.text Row.columns ellipsis ∧
      ∃ kept : List Char, kept <+: v.text.toList ∧
        Text.textWidth (String.ofList kept) ≤ Row.columns - Text.textWidth ellipsis ∧
        line = String.ofList kept ++ ellipsis

theorem linesUp_alignedText (v : Value) : LinesUp v (alignedText v) := by
  unfold alignedText
  by_cases hwide : Row.columns < Text.textWidth v.text
  · simp only [if_pos hwide]
    exact ⟨fun hfits => absurd hwide (Nat.not_lt_of_le hfits),
      fun hfits => absurd hwide (Nat.not_lt_of_le hfits),
      fun _ => ⟨rfl, Text.Typeface.truncate_of_lt v.text Row.columns ellipsis hwide⟩⟩
  · simp only [if_neg hwide]
    refine ⟨fun _ hstring => ?_, fun _ hother => ?_, fun h => absurd h hwide⟩
    · rw [if_pos hstring]
      rfl
    · rw [if_neg (Bool.eq_false_iff.mp hother)]
      rfl

/-- The row shows the longest beginning of a line that fits, from its first cell on, and is blank behind. -/
def ShowsLine (r : Row) (line : String) : Prop :=
  ∃ glyphs, Text.LongestFit Row.columns (Text.visible line.toList) glyphs ∧
    ∀ i < Row.columns, r[i]? = some ((Row.cellsOf glyphs)[i]?.getD .blank)

/-- The row shows a value: its line, as far as it fits. -/
def Renders (v : Value) (r : Row) : Prop := ∃ line, LinesUp v line ∧ ShowsLine r line

def rowOf (v : Value) : Row := Row.blank.write 0 (alignedText v).toList

theorem renders_rowOf (v : Value) : Renders v (rowOf v) :=
  ⟨alignedText v, linesUp_alignedText v, Row.getElem?_write_blank (alignedText v).toList⟩

theorem Shows.rows_writeRow (hs : h.Shows log) (v : Value) :
    (h.writeRow log.length 0 (alignedText v).toList).rows.toList = padded (log ++ [rowOf v]) := by
  obtain ⟨n, hn⟩ := Nat.exists_eq_add_of_lt hs.short
  have hrows : h.rows.toList = log ++ Row.blank :: List.replicate n Row.blank := by
    have hrest : height - log.length = n + 1 := by omega
    rw [hs.rows, padded, hrest, List.replicate_succ]
  have hrow : h.rows[log.length]? = some Row.blank := by
    rw [← Vector.getElem?_toList, hrows]
    simp
  have hlonger : height - (log ++ [rowOf v]).length = n := by
    rw [List.length_append, List.length_singleton]
    omega
  unfold writeRow
  simp only [hrow, Vector.toList_setIfInBounds, hrows, padded, hlonger]
  simp [rowOf]

/-- The row below the log is written, and if this was the last row of the screen, the oldest row goes. -/
theorem Shows.rows_display (hs : h.Shows log) (v : Value) :
    (h.display v).rows.toList =
      padded (if (log ++ [rowOf v]).length = height then (log ++ [rowOf v]).tail else log ++ [rowOf v]) := by
  have hwritten := hs.rows_writeRow v
  rw [display_eq, hs.firstBlankRow?]
  simp only [showLine]
  by_cases hlast : log.length = height - 1
  · have hfull : (log ++ [rowOf v]).length = height := by
      rw [List.length_append, List.length_singleton, hlast]
      rfl
    have htail : (log ++ [rowOf v]).tail.length < height := by
      rw [List.length_tail, hfull]
      decide
    rw [if_pos hlast, if_pos hfull, rows_scroll, ← padded_concat_blank htail, padded_of_length]
    · simp only [hwritten]
      rw [padded_of_length hfull]
    · rw [List.length_append, List.length_tail, hfull]
      rfl
  · have hfit : (log ++ [rowOf v]).length ≠ height := by
      rw [List.length_append, List.length_singleton]
      omega
    rw [if_neg hlast, if_neg hfit]
    exact hwritten

theorem Shows.display (hs : h.Shows log) (v : Value) : (h.display v).Shows (record log (rowOf v)) := by
  have hshort := hs.short
  refine ⟨?_, ?_, ?_⟩
  · have hlonger : (log ++ [rowOf v]).length ≤ height := by
      rw [List.length_append, List.length_singleton]
      exact hshort
    rw [hs.rows_display, record, padded_rdropWhile]
    split
    · exact Nat.le_trans (List.length_tail ▸ Nat.sub_le _ _) hlonger
    · exact hlonger
  · rw [record_eq hshort]
    exact written_rdropWhile (fun r hr => hs.written r (List.mem_of_mem_drop hr)) _
  · have hle := (List.rdropWhile_prefix Row.isBlank
      (log.drop (log.length - (height - 2)) ++ [rowOf v])).length_le
    rw [List.length_append, List.length_singleton, List.length_drop] at hle
    have height_eq : height = 8 := rfl
    rw [record_eq hshort]
    omega

theorem Shows.displays (hs : h.Shows log) (vs : List Value) :
    (vs.foldl Home.display h).Shows ((vs.map rowOf).foldl record log) := by
  induction vs generalizing h log with
  | nil => exact hs
  | cons v vs ih => exact ih (hs.display v)

/-- Whatever has been drawn before, the values displayed after a clear are shown as a log of their rows. If no
row is blank, the last seven of them are shown, in order. -/
theorem rows_of_displays (before : List DrawCall) (vs : List Value) :
    let rows := (DrawCall.run (before ++ .clear :: vs.map .display)).rows.toList
    (∀ v ∈ vs, Renders v (rowOf v)) ∧
      rows = padded ((vs.map rowOf).foldl record []) ∧
      ((∀ v ∈ vs, (rowOf v).isBlank = false) →
        rows = padded ((vs.map rowOf).drop (vs.length - 7))) := by
  intro rows
  have hrun : DrawCall.run (before ++ .clear :: vs.map .display) = vs.foldl Home.display .cleared := by
    rw [DrawCall.run, List.foldl_append, List.foldl_cons, List.foldl_map]
    rfl
  have hrows : rows = padded ((vs.map rowOf).foldl record []) := by
    simp only [rows, hrun]
    exact (shows_cleared.displays vs).rows
  refine ⟨fun v _ => renders_rowOf v, hrows, fun hwritten => ?_⟩
  have hwritten' : ∀ r ∈ vs.map rowOf, r.isBlank = false := List.forall_mem_map.mpr hwritten
  rw [hrows, foldl_record shows_cleared.short hwritten', List.nil_append, List.length_map]
  rfl

end Values

/-- Eight guests, of whom the last one does not fit on a row. -/
def guests : List Value :=
  ["A", "B", "C", "D", "E", "F", "G", "A GUEST WITHOUT A NAME"].map .string

theorem rows_of_displays_guests :
    (∀ v ∈ guests, (rowOf v).isBlank = false) ∧
      (DrawCall.run ([.display .null] ++ .clear :: guests.map .display)).rows.toList =
        padded ((guests.map rowOf).drop 1) ∧
      (guests.map rowOf).getLast?.map Row.text = some "A GUEST WITHO..." := by
  have hwritten : ∀ v ∈ guests, (rowOf v).isBlank = false := by decide +kernel
  exact ⟨hwritten, (rows_of_displays [.display .null] guests).2.2 hwritten, by decide +kernel⟩

end Home

end PocketBasic
