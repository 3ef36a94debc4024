import Mathlib
import PocketBasic.Proofs.Screen.Grid

/-!
# What a text overwrites

A text is written glyph by glyph, and each glyph may tear the glyphs under it. All together the text takes
the cells of its longest beginning that fits, one half of a wide glyph that it leaves at either end is
blanked, and nothing else changes.
-/

namespace PocketBasic

variable [Text.Typeface]

namespace Text

def visible (cs : List Char) : List Char := cs.filter (cellWidth · ≠ 0)

theorem visible_cons_zero {c : Char} (hc : cellWidth c = 0) (cs : List Char) :
    visible (c :: cs) = visible cs := by
  simp [visible, hc]

theorem visible_cons {c : Char} (hc : cellWidth c ≠ 0) (cs : List Char) :
    visible (c :: cs) = c :: visible cs := by
  simp [visible, hc]

/-- The longest beginning of a text that fits into so many cells. -/
structure LongestFit (room : Nat) (cs shown : List Char) : Prop where
  beginning : shown <+: cs
  fits : cellCount shown ≤ room
  longest : ∀ other, other <+: cs → cellCount other ≤ room → other.length ≤ shown.length

theorem longestFit_nil (room : Nat) : LongestFit room [] [] where
  beginning := List.prefix_refl []
  fits := Nat.zero_le room
  longest _ hother _ := hother.length_le

section Cons

variable {room : Nat} {c : Char} {cs shown : List Char}

theorem longestFit_of_lt (hroom : room < cellWidth c) : LongestFit room (c :: cs) [] where
  beginning := List.nil_prefix
  fits := Nat.zero_le room
  longest other hother hfits := by
    cases other with
    | nil => exact Nat.le_refl 0
    | cons d ds =>
      obtain ⟨rfl, -⟩ := List.cons_prefix_cons.mp hother
      rw [cellCount] at hfits
      omega

theorem LongestFit.cons (h : LongestFit (room - cellWidth c) cs shown) (hroom : cellWidth c ≤ room) :
    LongestFit room (c :: cs) (c :: shown) where
  beginning := List.cons_prefix_cons.mpr ⟨rfl, h.beginning⟩
  fits := by
    have hfits := h.fits
    rw [cellCount]
    omega
  longest other hother hfits := by
    cases other with
    | nil => exact Nat.zero_le _
    | cons d ds =>
      obtain ⟨rfl, hds⟩ := List.cons_prefix_cons.mp hother
      rw [cellCount] at hfits
      exact Nat.succ_le_succ (h.longest ds hds (by omega))

end Cons

end Text

namespace Row

open Text (LongestFit visible cellCount)

variable {r : Row} {c : Char} {col n i : Nat}

/-- The cells of glyphs side by side. A wide glyph covers the cell on its right. -/
def cellsOf : List Char → List Cell
  | [] => []
  | c :: cs =>
    if Text.cellWidth c = 2 then .glyph c :: .covered :: cellsOf cs else .glyph c :: cellsOf cs

/-- One half of a wide glyph stands at the column, and the other half within `n` columns from `col` on. -/
def CutAt (r : Row) (col n i : Nat) : Prop :=
  r.wideAt i = true ∧ col ≤ i + 1 ∧ i + 1 < col + n ∨
    r[i]? = some Cell.covered ∧ col < i ∧ i ≤ col + n

instance : Decidable (r.CutAt col n i) := inferInstanceAs (Decidable (_ ∨ _))

theorem Tiled.covered_succ_iff (h : r.Tiled) (i : Nat) :
    r[i + 1]? = some Cell.covered ↔ r.wideAt i = true := by
  constructor
  · intro hcovered
    obtain ⟨hlt, -⟩ := Vector.getElem?_eq_some_iff.mp hcovered
    exact (h.covered i hlt).mp hcovered
  · intro hwide
    exact (h.covered i (h.lt_of_wideAt hwide)).mpr hwide

/-- A row with glyphs over it from a column on, cell by cell. -/
def overwritten (r : Row) (col : Nat) (glyphs : List Char) (i : Nat) : Option Cell :=
  if col ≤ i ∧ i < col + cellCount glyphs then (cellsOf glyphs)[i - col]?
  else if r.CutAt col (cellCount glyphs) i then some Cell.blank
  else r[i]?

theorem overwritten_nil (r : Row) (col i : Nat) : r.overwritten col [] i = r[i]? := by
  have hspan : ¬ (col ≤ i ∧ i < col + cellCount []) := by
    rw [cellCount]
    omega
  have hcut : ¬ r.CutAt col (cellCount []) i := by
    unfold CutAt
    rw [cellCount]
    omega
  rw [overwritten, if_neg hspan, if_neg hcut]

/-- Putting a glyph and then others over the row is putting all of them over it. -/
theorem overwritten_put (h : r.Tiled) (hc : Text.cellWidth c ≠ 0) (hfit : col + Text.cellWidth c ≤ columns)
    (glyphs : List Char) (i : Nat) :
    (r.put col c).overwritten (col + Text.cellWidth c) glyphs i = r.overwritten col (c :: glyphs) i := by
  have hcell := getElem?_put h hc hfit i
  have hwide := wideAt_put h hc hfit i
  have hwidth : Text.cellWidth c = 1 ∨ Text.cellWidth c = 2 := by
    have := Text.cellWidth_cases c
    omega
  unfold overwritten
  rw [cellCount]
  generalize cellCount glyphs = n
  rcases Nat.lt_or_ge i col with hleft | hge
  · -- On the left, only a wide glyph that stands half under the first glyph is cut.
    have hcovered := h.covered_succ_iff i
    grind [CutAt]
  rcases Nat.lt_or_ge i (col + Text.cellWidth c) with hown | hbehind
  · -- The first glyph is whole, so the others do not cut it.
    grind [CutAt, cellsOf]
  rcases Nat.lt_or_ge i (col + Text.cellWidth c + n) with hothers | hright
  · grind [cellsOf]
  · -- On the right, a wide glyph is cut by the last of the glyphs, which is the first one if `n` is zero.
    obtain ⟨j, rfl⟩ := Nat.exists_eq_succ_of_ne_zero (show i ≠ 0 by omega)
    have hcovered := h.covered_succ_iff j
    grind [CutAt]

theorem getElem?_write (h : r.Tiled) (cs : List Char) (hcol : col ≤ columns) :
    ∃ shown, LongestFit (columns - col) (visible cs) shown ∧
      ∀ i, (r.write col cs)[i]? = r.overwritten col shown i := by
  induction cs generalizing r col with
  | nil => exact ⟨[], Text.longestFit_nil _, fun i => (overwritten_nil r col i).symm⟩
  | cons c cs ih =>
    unfold write
    by_cases hzero : Text.cellWidth c = 0
    · rw [Text.visible_cons_zero hzero, if_pos hzero]
      exact ih h hcol
    · rw [Text.visible_cons hzero, if_neg hzero]
      by_cases hbeyond : columns < col + Text.cellWidth c
      · rw [if_pos hbeyond]
        exact ⟨[], Text.longestFit_of_lt (by omega), fun i => (overwritten_nil r col i).symm⟩
      · rw [if_neg hbeyond]
        have hfit := Nat.not_lt.mp hbeyond
        obtain ⟨shown, hshown, hcells⟩ := ih (tiled_put h hzero hfit) hfit
        rw [Nat.sub_add_eq] at hshown
        exact ⟨c :: shown, hshown.cons (by omega), fun i =>
          (hcells i).trans (overwritten_put h hzero hfit shown i)⟩

theorem length_cellsOf {glyphs : List Char} (h : ∀ c ∈ glyphs, Text.cellWidth c ≠ 0) :
    (cellsOf glyphs).length = cellCount glyphs := by
  induction glyphs with
  | nil => rfl
  | cons c cs ih =>
    obtain ⟨hc, hcs⟩ := List.forall_mem_cons.mp h
    have hwidth := Text.cellWidth_cases c
    rw [cellsOf, cellCount, ← ih hcs]
    split
    · next hwide =>
      simp only [List.length_cons, hwide]
      omega
    · rw [List.length_cons]
      omega

theorem not_cutAt_blank (col n i : Nat) : ¬ blank.CutAt col n i := by
  have hcells (j : Nat) : blank[j]? = none ∨ blank[j]? = some Cell.blank := by
    simp only [blank, Vector.getElem?_replicate]
    split
    · exact .inr rfl
    · exact .inl rfl
  rintro (⟨hwide, -⟩ | ⟨hcovered, -⟩)
  · rcases hcells i with hi | hi
    · simp [wideAt_none hi] at hwide
    · simp [wideAt_blank hi] at hwide
  · rcases hcells i with hi | hi <;> cases hi.symm.trans hcovered

theorem getElem?_write_blank (cs : List Char) :
    ∃ shown, LongestFit columns (visible cs) shown ∧
      ∀ i < columns, (blank.write 0 cs)[i]? = some ((cellsOf shown)[i]?.getD .blank) := by
  obtain ⟨shown, hshown, hcells⟩ := getElem?_write tiled_blank cs (Nat.zero_le columns)
  refine ⟨shown, hshown, fun i hi => ?_⟩
  have hlength : (cellsOf shown).length = cellCount shown := length_cellsOf fun c hc => by
    simpa using (List.mem_filter.mp (hshown.beginning.mem hc)).2
  rw [hcells, overwritten, if_neg (not_cutAt_blank 0 _ i)]
  by_cases hwritten : i < cellCount shown
  · have hlt : i < (cellsOf shown).length := hlength.symm ▸ hwritten
    rw [if_pos ⟨Nat.zero_le i, by omega⟩, Nat.sub_zero, List.getElem?_eq_getElem hlt, Option.getD_some]
  · have hge : (cellsOf shown).length ≤ i := by omega
    rw [if_neg (by omega), List.getElem?_eq_none hge, Option.getD_none, blank, Vector.getElem?_replicate]
    exact if_pos hi

end Row

namespace Home

variable {h : Home}

theorem tiled_of_getElem? (hr : h.Regular) {row : Nat} {r : Row} (hrow : h.rows[row]? = some r) :
    r.Tiled :=
  hr.rows r (Vector.mem_of_getElem? hrow)

/-- Whatever has been drawn, a value at a position of the grid overwrites the cells that the longest beginning
of its glyphs takes on the rest of the row, blanks the halves of the wide glyphs that it cuts, and changes
nothing else. Outside the grid nothing happens. -/
theorem output_overwrites (calls : List DrawCall) (row col : Int) (v : Value) :
    let h := DrawCall.run calls
    if 1 ≤ row ∧ row ≤ height ∧ 1 ≤ col ∧ col ≤ Row.columns then
      ∃ (glyphs : List Char) (r r' : Row),
        Text.LongestFit (Row.columns - (col - 1).toNat) (Text.visible v.text.toList) glyphs ∧
        h.rows[(row - 1).toNat]? = some r ∧
        h.output row col v = { h with rows := h.rows.setIfInBounds (row - 1).toNat r' } ∧
        ∀ i, r'[i]? = r.overwritten (col - 1).toNat glyphs i
    else h.output row col v = h := by
  intro h
  unfold output
  split
  · next hinside =>
    obtain ⟨hrow, hrow', hcol, hcol'⟩ := hinside
    have hlt : (row - 1).toNat < height := by omega
    obtain ⟨r, hr⟩ : ∃ r, h.rows[(row - 1).toNat]? = some r := ⟨_, Vector.getElem?_eq_getElem hlt⟩
    have htiled := tiled_of_getElem? (regular_run calls) hr
    obtain ⟨glyphs, hglyphs, hcells⟩ := Row.getElem?_write htiled v.text.toList
      (show (col - 1).toNat ≤ Row.columns by omega)
    refine ⟨glyphs, r, r.write (col - 1).toNat v.text.toList, hglyphs, hr, ?_, hcells⟩
    unfold writeRow
    rw [hr]
  · rfl

end Home

end PocketBasic
