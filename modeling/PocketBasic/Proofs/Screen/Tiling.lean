import PocketBasic.Screen.Home

/-!
# Rows without torn glyphs

A row is tiled if a cell is covered exactly where the cell on its left shows a wide glyph and no wide
glyph stands in the last column. Putting a glyph is described cell by cell: beside its own cells only
the far half of a wide glyph that it cuts is changed. So writing any text keeps a row tiled, and the
characters of a tiled row take as many cells as the row has.
-/

namespace PocketBasic

variable [Text.Typeface]

namespace Text

theorem cellWidth_cases (c : Char) : cellWidth c = 0 ∨ cellWidth c = 1 ∨ cellWidth c = 2 := by
  have := cellWidth_le_two c
  omega

/-- The cells that the characters of a text take, counted one by one. -/
def cellCount : List Char → Nat
  | [] => 0
  | c :: cs => cellWidth c + cellCount cs

theorem cellCount_append (cs ds : List Char) :
    cellCount (cs ++ ds) = cellCount cs + cellCount ds := by
  induction cs with
  | nil => simp [cellCount]
  | cons c cs ih => simp only [List.cons_append, cellCount, ih, Nat.add_assoc]

end Text

namespace Row

variable {r : Row} {col i : Nat} {c : Char}

/-- Whether the left half of a wide glyph stands at the column. -/
def wideAt (r : Row) (i : Nat) : Bool := r[i]?.map Cell.width == some 2

structure Tiled (r : Row) : Prop where
  glyph : ∀ (i : Nat) (c : Char), r[i]? = some (Cell.glyph c) →
    Text.cellWidth c = 1 ∨ Text.cellWidth c = 2
  first : r[0]? ≠ some Cell.covered
  covered : ∀ i, i + 1 < columns → (r[i + 1]? = some Cell.covered ↔ r.wideAt i = true)
  last : r.wideAt (columns - 1) = false

theorem wideAt_glyph (h : r[i]? = some (Cell.glyph c)) :
    r.wideAt i = decide (Text.cellWidth c = 2) := by
  simp [wideAt, h, Cell.width, Bool.beq_eq_decide_eq]

theorem wideAt_covered (h : r[i]? = some Cell.covered) : r.wideAt i = false := by
  simp [wideAt, h, Cell.width]

theorem wideAt_none (h : r[i]? = none) : r.wideAt i = false := by
  simp [wideAt, h]

theorem wideAt_blank (h : r[i]? = some Cell.blank) : r.wideAt i = false := by
  simp [wideAt, h, Cell.blank, Cell.width, Text.cellWidth_blank]

theorem tiled_blank : Tiled blank := by
  have hcell (i : Nat) (x : Cell) (h : blank[i]? = some x) : x = .glyph ' ' := by
    simp only [blank, Vector.getElem?_replicate] at h
    split at h <;> cases h
    rfl
  have hwidth : Text.cellWidth ' ' = 1 := Text.cellWidth_blank
  have hnarrow (i : Nat) : blank.wideAt i = false := by
    cases hx : blank[i]? with
    | none => exact wideAt_none hx
    | some x =>
      cases hcell i x hx
      exact wideAt_blank hx
  refine ⟨fun i c h => ?_, fun h => ?_, fun i _ => ⟨fun h => ?_, fun h => ?_⟩, hnarrow _⟩
  · cases hcell i _ h
    exact .inl hwidth
  · cases hcell 0 _ h
  · cases hcell (i + 1) _ h
  · rw [hnarrow] at h
    cases h

/-- Of the cells around a column, uncovering it blanks the other half of a wide glyph. -/
theorem getElem?_uncover (r : Row) (col i : Nat) :
    (r.uncover col)[i]? =
      if i + 1 = col ∧ r[col]? = some Cell.covered ∨ i = col + 1 ∧ r.wideAt col = true then
        if i < columns then some Cell.blank else none
      else r[i]? := by
  unfold uncover
  cases hcell : r[col]? with
  | none => simp [wideAt_none hcell]
  | some x =>
    cases x with
    | covered =>
      by_cases hpos : 0 < col
      · simp [hpos, wideAt_covered hcell, Vector.getElem?_setIfInBounds, columns]
        grind
      · simp [hpos, wideAt_covered hcell]
        omega
    | glyph c =>
      by_cases hwide : Text.cellWidth c = 2
      · simp [hwide, wideAt_glyph hcell, Vector.getElem?_setIfInBounds, columns]
        grind
      · simp [hwide, wideAt_glyph hcell]

theorem Tiled.lt_of_wideAt (h : r.Tiled) (hwide : r.wideAt i = true) : i + 1 < columns := by
  have hlt : i < columns := by
    rcases Nat.lt_or_ge i columns with hlt | hle
    · exact hlt
    · rw [wideAt_none (Vector.getElem?_eq_none hle)] at hwide
      cases hwide
  have hne : i ≠ columns - 1 := by
    rintro rfl
    rw [h.last] at hwide
    cases hwide
  omega

theorem Tiled.wideAt_succ (h : r.Tiled) (hwide : r.wideAt i = true) : r.wideAt (i + 1) = false :=
  wideAt_covered ((h.covered i (h.lt_of_wideAt hwide)).mpr hwide)

/-- Replacing one cell by a glyph blanks the other half of the wide glyph that it cuts. -/
theorem getElem?_replace (h : r.Tiled) (c : Char) (hcol : col < columns) (i : Nat) :
    ((r.uncover col).setIfInBounds col (.glyph c))[i]? =
      if i = col then some (Cell.glyph c)
      else if i + 1 = col ∧ r[col]? = some Cell.covered ∨ i = col + 1 ∧ r.wideAt col = true then
        some Cell.blank
      else r[i]? := by
  rw [Vector.getElem?_setIfInBounds, getElem?_uncover]
  by_cases hi : i = col
  · subst hi
    rw [if_pos rfl, if_pos rfl]
    exact if_pos hcol
  · rw [if_neg (Ne.symm hi), if_neg hi]
    by_cases hcut : i + 1 = col ∧ r[col]? = some Cell.covered ∨ i = col + 1 ∧ r.wideAt col = true
    · have hlt : i < columns := by
        rcases hcut with ⟨hleft, -⟩ | ⟨rfl, hwide⟩
        · omega
        · exact h.lt_of_wideAt hwide
      rw [if_pos hcut, if_pos hlt, if_pos hcut]
    · rw [if_neg hcut, if_neg hcut]

/-- A glyph takes its own cells, and of a wide glyph that it cuts the rest is blanked. -/
theorem getElem?_put (h : r.Tiled) (hc : Text.cellWidth c ≠ 0)
    (hfit : col + Text.cellWidth c ≤ columns) (i : Nat) :
    (r.put col c)[i]? =
      if i = col then some (Cell.glyph c)
      else if i = col + 1 ∧ Text.cellWidth c = 2 then some Cell.covered
      else if i + 1 = col ∧ r[col]? = some Cell.covered ∨
          i = col + Text.cellWidth c ∧ r.wideAt (i - 1) = true then some Cell.blank
      else r[i]? := by
  have hcases : Text.cellWidth c = 1 ∨ Text.cellWidth c = 2 := by
    have := Text.cellWidth_cases c
    omega
  have hreplace := getElem?_replace h c (show col < columns by omega)
  unfold put
  generalize (r.uncover col).setIfInBounds col (.glyph c) = r₁ at hreplace ⊢
  rcases hcases with hw | hw
  · simp only [hw]
    grind
  · -- Once the first half is in place, the cell on the right is not covered, and it is wide only if it
    -- was so before.
    have hright : r₁[col + 1]? = if r.wideAt col = true then some Cell.blank else r[col + 1]? := by
      rw [hreplace]
      grind
    have hopen : r₁[col + 1]? ≠ some Cell.covered ∧ wideAt r₁ (col + 1) = r.wideAt (col + 1) := by
      have hcovered := h.covered col (by omega)
      cases hwide : r.wideAt col with
      | false =>
        rw [hwide] at hright hcovered
        exact ⟨fun he => by simp_all, by unfold wideAt; rw [hright]; rfl⟩
      | true =>
        rw [hwide] at hright hcovered
        have hnext := wideAt_covered (hcovered.mpr rfl)
        refine ⟨by rw [hright]; simp [Cell.blank], ?_⟩
        rw [hnext, wideAt_blank hright]
    simp only [hw, if_true]
    rw [Vector.getElem?_setIfInBounds, getElem?_uncover, hopen.2]
    have hlast := h.lt_of_wideAt (i := col + 1)
    simp only [hopen.1]
    grind [columns]

theorem wideAt_put (h : r.Tiled) (hc : Text.cellWidth c ≠ 0)
    (hfit : col + Text.cellWidth c ≤ columns) (i : Nat) :
    (r.put col c).wideAt i =
      if i = col then decide (Text.cellWidth c = 2)
      else if i = col + 1 ∧ Text.cellWidth c = 2 then false
      else if i + 1 = col ∧ r[col]? = some Cell.covered ∨
          i = col + Text.cellWidth c ∧ r.wideAt (i - 1) = true then false
      else r.wideAt i := by
  have hcell := getElem?_put h hc hfit i
  by_cases hat : i = col
  · rw [if_pos hat] at hcell ⊢
    exact wideAt_glyph hcell
  · rw [if_neg hat] at hcell ⊢
    by_cases hhalf : i = col + 1 ∧ Text.cellWidth c = 2
    · rw [if_pos hhalf] at hcell ⊢
      exact wideAt_covered hcell
    · rw [if_neg hhalf] at hcell ⊢
      by_cases hcut : i + 1 = col ∧ r[col]? = some Cell.covered ∨
          i = col + Text.cellWidth c ∧ r.wideAt (i - 1) = true
      · rw [if_pos hcut] at hcell ⊢
        exact wideAt_blank hcell
      · rw [if_neg hcut] at hcell ⊢
        simp only [wideAt, hcell]

theorem tiled_put (h : r.Tiled) (hc : Text.cellWidth c ≠ 0)
    (hfit : col + Text.cellWidth c ≤ columns) : (r.put col c).Tiled := by
  have hcell := getElem?_put h hc hfit
  have hwide := wideAt_put h hc hfit
  have hcases : Text.cellWidth c = 1 ∨ Text.cellWidth c = 2 := by
    have := Text.cellWidth_cases c
    omega
  refine ⟨fun i c' hi => ?_, ?_, fun i hi => ?_, ?_⟩
  · rw [hcell] at hi
    have hblank : Text.cellWidth ' ' = 1 := Text.cellWidth_blank
    have hold := h.glyph i c'
    grind [Cell.blank]
  · rw [hcell]
    have hfirst := h.first
    grind [Cell.blank]
  · rw [hcell, hwide]
    clear hcell hwide
    have hold := h.covered i hi
    have hright := h.covered (i + 1)
    have hpair := h.wideAt_succ (i := i)
    have hpair' := h.wideAt_succ (i := i - 1)
    grind [Cell.blank]
  · rw [hwide]
    have hlast := h.last
    grind [columns]

theorem tiled_write (h : r.Tiled) (col : Nat) (cs : List Char) : (r.write col cs).Tiled := by
  induction cs generalizing r col with
  | nil => exact h
  | cons c cs ih =>
    unfold write
    by_cases hzero : Text.cellWidth c = 0
    · rw [if_pos hzero]
      exact ih h col
    · rw [if_neg hzero]
      by_cases hbeyond : columns < col + Text.cellWidth c
      · rw [if_pos hbeyond]
        exact h
      · rw [if_neg hbeyond]
        exact ih (tiled_put h hzero (Nat.not_lt.mp hbeyond)) (col + Text.cellWidth c)

/-- The first cells of a row hold as many cells of text as they are, and one more if the last of them
is the left half of a wide glyph. -/
theorem Tiled.cellCount_take (h : r.Tiled) (n : Nat) (hn : n ≤ columns) :
    Text.cellCount ((r.toList.take n).flatMap Cell.chars) =
      n + if 0 < n ∧ r.wideAt (n - 1) = true then 1 else 0 := by
  induction n with
  | zero => simp [Text.cellCount]
  | succ n ih =>
    obtain ⟨x, hx⟩ : ∃ x, r[n]? = some x := ⟨_, Vector.getElem?_eq_getElem hn⟩
    rw [List.take_add_one, List.flatMap_append, Text.cellCount_append, ih (by omega),
      Vector.getElem?_toList, hx]
    have hbefore : 0 < n → (r[n]? = some Cell.covered ↔ r.wideAt (n - 1) = true) := by
      intro hpos
      have hcovered := h.covered (n - 1) (by omega)
      rwa [Nat.sub_add_cancel hpos] at hcovered
    cases x with
    | covered =>
      have hpos : 0 < n := by
        rcases Nat.eq_zero_or_pos n with rfl | hpos
        · exact absurd hx h.first
        · exact hpos
      simp [Cell.chars, Text.cellCount, hpos, (hbefore hpos).mp hx, wideAt_covered hx]
    | glyph c =>
      have hnarrow : ¬ (0 < n ∧ r.wideAt (n - 1) = true) := by
        rintro ⟨hpos, hwide⟩
        have hcovered := (hbefore hpos).mpr hwide
        rw [hx] at hcovered
        cases hcovered
      rw [if_neg hnarrow]
      rcases h.glyph n c hx with hw | hw
      · simp [Cell.chars, Text.cellCount, wideAt_glyph hx, hw]
      · simp [Cell.chars, Text.cellCount, wideAt_glyph hx, hw]

theorem Tiled.cellCount_text (h : r.Tiled) : Text.cellCount r.text.toList = columns := by
  have hall := h.cellCount_take columns (Nat.le_refl _)
  rw [h.last, List.take_of_length_le (by simp [columns])] at hall
  simpa [text] using hall

end Row

end PocketBasic
