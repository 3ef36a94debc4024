import Mathlib
import PocketBasic.Journal.Basic
import PocketBasic.Proofs.Entries

/-!
# Files that are moved aside

What the files of a path hold is told by their numbers. Moving the live file aside moves every old file up
by one, and the oldest one goes when there are too many. The renames run from the oldest file down, so each
of them finds its new name free.
-/

namespace PocketBasic.Journal.Folder

theorem find?_remove (d : Folder) (a f : FileName) :
    (d.remove a).find? f = if f = a then none else d.find? f := by
  have hlookup := lookup_filter_key (· != a) d f
  rw [remove, find?, hlookup]
  by_cases h : f = a
  · simp [h]
  · simp [h, find?]

theorem find?_put (d : Folder) (a : FileName) (entries : List Entry) (f : FileName) :
    (d.put a entries).find? f = if f = a then some entries else d.find? f := by
  have hremove := find?_remove d a f
  by_cases h : f = a
  · rw [if_pos h, h, put, find?, List.lookup_cons_self]
  · rw [if_neg h, put, find?, lookup_cons_of_ne h, ← find?, hremove, if_neg h]

/-- The files of a path by their numbers. There are no others. -/
def Holds (d : Folder) (path : String) (g : Nat → Option (List Entry)) : Prop :=
  ∀ f, d.find? f = if f.path = path then g f.number else none

section Files

variable {d : Folder} {path : String} {g : Nat → Option (List Entry)} {m n i : Nat}

theorem Holds.find? (h : d.Holds path g) (n : Nat) :
    d.find? ⟨path, n⟩ = g n := (h ⟨path, n⟩).trans (if_pos rfl)

theorem Holds.congr {g' : Nat → Option (List Entry)} (h : d.Holds path g) (hg : ∀ n, g n = g' n) :
    d.Holds path g' := by
  rwa [← funext hg]

theorem Holds.remove (h : d.Holds path g) (n : Nat) :
    (d.remove ⟨path, n⟩).Holds path (Function.update g n none) := by
  rintro ⟨other, k⟩
  rw [find?_remove, h ⟨other, k⟩, Function.update_apply]
  grind

theorem Holds.put (h : d.Holds path g) (n : Nat) (entries : List Entry) :
    (d.put ⟨path, n⟩ entries).Holds path (Function.update g n (some entries)) := by
  rintro ⟨other, k⟩
  rw [find?_put, h ⟨other, k⟩, Function.update_apply]
  grind

/-- A file whose name is free is renamed, and so is a missing one. -/
theorem Holds.rename (h : d.Holds path g) (hfree : g n = none → g m = none) :
    (d.rename ⟨path, n⟩ ⟨path, m⟩).Holds path (Function.update (Function.update g n none) m (g n)) := by
  rw [Folder.rename, h.find? n]
  cases hn : g n with
  | some entries => exact (h.remove n).put m entries
  | none =>
    refine h.congr fun k => ?_
    simp only [Function.update_apply]
    grind

/-- The numbers up to `i` move up by one, which leaves number zero free. -/
def moveUp (g : Nat → Option (List Entry)) (i : Nat) : Nat → Option (List Entry)
  | 0 => none
  | n + 1 => if n ≤ i then g n else g (n + 1)

theorem Holds.shift (h : d.Holds path g) (hgap : ∀ n ≤ i, g n = none → g (n + 1) = none) :
    ((d.shift path i).rename ⟨path, 0⟩ ⟨path, 1⟩).Holds path (moveUp g i) := by
  induction i generalizing d g with
  | zero =>
    refine (h.rename (hgap 0 (Nat.le_refl 0))).congr fun k => ?_
    cases k with
    | zero => rfl
    | succ k =>
      rw [moveUp, Function.update_apply, Function.update_apply]
      grind
  | succ i ih =>
    rw [Folder.shift]
    have hrenamed := h.rename (hgap (i + 1) (Nat.le_refl _))
    refine (ih hrenamed fun k hk hnone => ?_).congr fun k => ?_
    · simp only [Function.update_apply] at hnone ⊢
      grind
    · cases k with
      | zero => rfl
      | succ k =>
        simp only [moveUp, Function.update_apply]
        grind

/-- At most `limit` old files remain when the live file has become the first of them. -/
theorem Holds.rotate {pages : List (List Entry)} {keep : Int} {limit : Nat}
    (h : d.Holds path (pages[·]?)) (hlimit : (limit : Int) = max 1 keep)
    (hlength : pages.length ≤ limit + 1) :
    (d.rotate path keep).Holds path (([] :: pages.take limit)[·]?) := by
  obtain ⟨top, rfl⟩ : ∃ top, limit = top + 1 := ⟨limit - 1, by omega⟩
  have htop : (keep - 1).toNat = top := by omega
  unfold Folder.rotate
  rw [htop]
  -- The oldest file is taken away first, except where it is the only one and written over.
  have hcleared : ∃ g, Holds (if 0 < top then d.remove ⟨path, top + 1⟩ else d) path g ∧
      (∀ n, n ≠ top + 1 → g n = pages[n]?) ∧ (g top = none → g (top + 1) = none) := by
    split
    · refine ⟨_, h.remove (top + 1), fun n hn => Function.update_of_ne hn _ _, fun _ => ?_⟩
      exact Function.update_self _ _ _
    · refine ⟨_, h, fun _ _ => rfl, fun hnone => ?_⟩
      rw [List.getElem?_eq_none_iff] at hnone ⊢
      omega
  obtain ⟨g, hg, hpages, hlast⟩ := hcleared
  have hgap : ∀ n ≤ top, g n = none → g (n + 1) = none := by
    intro n hn hnone
    by_cases htop : n = top
    · exact htop ▸ hlast (htop ▸ hnone)
    · rw [hpages n (by omega), List.getElem?_eq_none_iff] at hnone
      rw [hpages (n + 1) (by omega), List.getElem?_eq_none_iff]
      omega
  refine ((hg.shift hgap).put 0 []).congr fun n => ?_
  cases n with
  | zero => rfl
  | succ n =>
    rw [Function.update_of_ne (Nat.succ_ne_zero n), moveUp, List.getElem?_cons_succ, List.getElem?_take]
    by_cases hn : n ≤ top
    · rw [if_pos hn, if_pos (by omega), hpages n (by omega)]
    · rw [if_neg hn, if_neg (by omega), hpages (n + 1) (by omega), List.getElem?_eq_none_iff]
      omega

end Files

end PocketBasic.Journal.Folder
