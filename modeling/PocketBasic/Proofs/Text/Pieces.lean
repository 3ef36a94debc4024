import Mathlib
import PocketBasic.Text.Blank
import PocketBasic.Text.Lines

/-!
# Pieces of a text

Trimming leaves a text alone whose first and last characters are not blank, and such characters stay
where they are. So there is nothing to trim the second time. A text is cut at the first of its separators
and split at all of them: lines that all end with a separator are split into these lines.
-/

namespace PocketBasic.Text

variable {cs : List Char} {c : Char}

theorem isBlank_of_visible (hlow : 32 < c.toNat) (hhigh : c.toNat < 127) : isBlank c = false := by
  simp only [isBlank, Bool.or_eq_false_iff, Bool.and_eq_false_iff, decide_eq_false_iff_not,
    beq_eq_false_iff_ne]
  omega

theorem trimChars_eq_rdropWhile (cs : List Char) :
    trimChars cs = (cs.dropWhile isBlank).rdropWhile isBlank := rfl

theorem trimChars_sublist (cs : List Char) : (trimChars cs).Sublist cs :=
  (List.rdropWhile_prefix isBlank _).sublist.trans (List.dropWhile_suffix isBlank).sublist

theorem dropWhile_eq_self_of_head? (hfirst : ∀ c, cs.head? = some c → isBlank c = false) :
    cs.dropWhile isBlank = cs := by
  cases cs with
  | nil => rfl
  | cons c cs => rw [List.dropWhile_cons_of_neg (by rw [hfirst c rfl]; exact Bool.false_ne_true)]

theorem rdropWhile_eq_self_of_getLast? (hlast : ∀ c, cs.getLast? = some c → isBlank c = false) :
    cs.rdropWhile isBlank = cs := by
  rw [List.rdropWhile_eq_self_iff]
  intro hne
  rw [hlast _ (List.getLast?_eq_some_getLast hne)]
  exact Bool.false_ne_true

theorem trimChars_eq_self (hfirst : ∀ c, cs.head? = some c → isBlank c = false)
    (hlast : ∀ c, cs.getLast? = some c → isBlank c = false) : trimChars cs = cs := by
  rw [trimChars_eq_rdropWhile, dropWhile_eq_self_of_head? hfirst, rdropWhile_eq_self_of_getLast? hlast]

theorem head?_trimChars (hfirst : cs.head? = some c) (hc : isBlank c = false) :
    (trimChars cs).head? = some c := by
  have hkept : cs.dropWhile isBlank = cs := by
    refine dropWhile_eq_self_of_head? fun d hd => ?_
    rw [hfirst] at hd
    cases hd
    exact hc
  rw [trimChars_eq_rdropWhile, hkept]
  have hne : cs.rdropWhile isBlank ≠ [] := fun hnil => by
    rw [List.rdropWhile_eq_nil_iff] at hnil
    rw [hnil c (List.mem_of_head? hfirst)] at hc
    cases hc
  obtain ⟨rest, hrest⟩ := List.rdropWhile_prefix isBlank cs
  rw [← hrest, List.head?_append_of_ne_nil _ hne] at hfirst
  exact hfirst

theorem getLast?_trimChars (hlast : cs.getLast? = some c) (hc : isBlank c = false) :
    (trimChars cs).getLast? = some c := by
  have hne : cs.dropWhile isBlank ≠ [] := fun hnil => by
    rw [List.dropWhile_eq_nil_iff] at hnil
    rw [hnil c (List.mem_of_getLast? hlast)] at hc
    cases hc
  obtain ⟨front, hfront⟩ := List.dropWhile_suffix isBlank (l := cs)
  rw [← hfront, List.getLast?_append_of_ne_nil _ hne] at hlast
  rw [trimChars_eq_rdropWhile, rdropWhile_eq_self_of_getLast?, hlast]
  intro d hd
  rw [hlast] at hd
  cases hd
  exact hc

theorem isBlank_of_head?_trimChars (hfirst : (trimChars cs).head? = some c) : isBlank c = false := by
  obtain ⟨rest, hrest⟩ := List.rdropWhile_prefix isBlank (cs.dropWhile isBlank)
  have hfront : (cs.dropWhile isBlank).head? = some c := by
    rw [← hrest, List.head?_append, ← trimChars_eq_rdropWhile, hfirst]
    rfl
  have hnot := List.head?_dropWhile_not isBlank cs
  rw [hfront] at hnot
  exact hnot

theorem isBlank_of_getLast?_trimChars (hlast : (trimChars cs).getLast? = some c) :
    isBlank c = false := by
  have hne : trimChars cs ≠ [] := List.ne_nil_of_mem (List.mem_of_getLast? hlast)
  have hnot := List.rdropWhile_last_not isBlank (cs.dropWhile isBlank) hne
  rw [List.getLast?_eq_some_getLast hne, Option.some_inj] at hlast
  rw [← hlast]
  exact Bool.eq_false_iff.mpr hnot

theorem trimChars_trimChars (cs : List Char) : trimChars (trimChars cs) = trimChars cs :=
  trimChars_eq_self (fun _ => isBlank_of_head?_trimChars) (fun _ => isBlank_of_getLast?_trimChars)

theorem dropCarriageReturn_eq_self (hlast : ∀ c, cs.getLast? = some c → isBlank c = false) :
    dropCarriageReturn cs = cs := by
  unfold dropCarriageReturn
  rw [if_neg]
  intro hreturn
  have hblank := hlast '\r' hreturn
  revert hblank
  decide

theorem dropCarriageReturn_sublist (cs : List Char) : (dropCarriageReturn cs).Sublist cs := by
  unfold dropCarriageReturn
  split
  · exact List.dropLast_sublist cs
  · exact List.Sublist.refl cs

theorem cut?_eq_some_iff {sep : Char} {a b : List Char} :
    cut? sep cs = some (a, b) ↔ sep ∉ a ∧ cs = a ++ sep :: b := by
  induction cs generalizing a with
  | nil => simp [cut?]
  | cons d cs ih =>
    unfold cut?
    by_cases hd : d = sep
    · rw [if_pos hd, Option.some_inj, Prod.mk.injEq]
      constructor
      · rintro ⟨rfl, rfl⟩
        exact ⟨List.not_mem_nil, by rw [hd]; rfl⟩
      · rintro ⟨hnone, hcs⟩
        cases a with
        | nil => exact ⟨rfl, (List.cons.inj hcs).2⟩
        | cons e a => exact absurd ((List.cons.inj hcs).1.symm.trans hd ▸ List.mem_cons_self) hnone
    · rw [if_neg hd]
      cases a with
      | nil => simp [hd]
      | cons e a =>
        have hsep : sep ≠ d := fun h => hd h.symm
        simp only [Option.map_eq_some_iff, Prod.exists, Prod.mk.injEq, List.cons.injEq,
          List.cons_append, List.mem_cons, not_or]
        constructor
        · rintro ⟨a', b', hcut, ⟨rfl, rfl⟩, rfl⟩
          obtain ⟨hnone, hcs⟩ := ih.mp hcut
          exact ⟨⟨hsep, hnone⟩, rfl, hcs⟩
        · rintro ⟨⟨-, hnone⟩, rfl, hcs⟩
          exact ⟨a, b, ih.mpr ⟨hnone, hcs⟩, ⟨rfl, rfl⟩, rfl⟩

variable {sep : Char} {l : List Char} {ls : List (List Char)}

theorem splitAt_ne_nil (sep : Char) (cs : List Char) : splitAt sep cs ≠ [] := by
  cases cs with
  | nil => exact List.cons_ne_nil _ _
  | cons c cs =>
    unfold splitAt
    split
    · exact List.cons_ne_nil _ _
    · split <;> exact List.cons_ne_nil _ _

theorem splitAt_cons_of_ne {c : Char} (hc : c ≠ sep) (h : splitAt sep cs = l :: ls) :
    splitAt sep (c :: cs) = (c :: l) :: ls := by
  rw [splitAt, if_neg hc, h]

theorem not_mem_of_mem_splitAt (h : l ∈ splitAt sep cs) : sep ∉ l := by
  induction cs generalizing l with
  | nil =>
    rw [splitAt, List.mem_singleton] at h
    rw [h]
    exact List.not_mem_nil
  | cons c cs ih =>
    by_cases hc : c = sep
    · rw [splitAt, if_pos hc, List.mem_cons] at h
      rcases h with rfl | h
      · exact List.not_mem_nil
      · exact ih h
    · obtain ⟨first, rest, hsplit⟩ := List.exists_cons_of_ne_nil (splitAt_ne_nil sep cs)
      rw [splitAt_cons_of_ne hc hsplit, List.mem_cons] at h
      rcases h with rfl | h
      · have hfirst : sep ∉ first := ih (by rw [hsplit]; exact List.mem_cons_self)
        rw [List.mem_cons, not_or]
        exact ⟨fun h => hc h.symm, hfirst⟩
      · exact ih (by rw [hsplit]; exact List.mem_cons_of_mem _ h)

theorem splitAt_of_not_mem (hl : sep ∉ l) : splitAt sep l = [l] := by
  induction l with
  | nil => rfl
  | cons c l ih =>
    rw [List.mem_cons, not_or] at hl
    exact splitAt_cons_of_ne (fun h => hl.1 h.symm) (ih hl.2)

theorem splitAt_append (sep : Char) (cs ds : List Char) :
    splitAt sep (cs ++ sep :: ds) = splitAt sep cs ++ splitAt sep ds := by
  induction cs with
  | nil =>
    have hfirst : splitAt sep (sep :: ds) = [] :: splitAt sep ds := by rw [splitAt, if_pos rfl]
    exact hfirst
  | cons c cs ih =>
    by_cases hc : c = sep
    · rw [List.cons_append, splitAt, if_pos hc, ih, splitAt, if_pos hc, List.cons_append]
    · obtain ⟨l, ls, hsplit⟩ := List.exists_cons_of_ne_nil (splitAt_ne_nil sep cs)
      have hboth : splitAt sep (cs ++ sep :: ds) = l :: (ls ++ splitAt sep ds) := by
        rw [ih, hsplit, List.cons_append]
      rw [List.cons_append, splitAt_cons_of_ne hc hboth, splitAt_cons_of_ne hc hsplit,
        List.cons_append]

theorem splitAt_flatMap (hls : ∀ l ∈ ls, sep ∉ l) :
    splitAt sep (ls.flatMap (· ++ [sep])) = ls ++ [[]] := by
  induction ls with
  | nil => rfl
  | cons l ls ih =>
    have hrest : ∀ l' ∈ ls, sep ∉ l' := fun l' hl' => hls l' (List.mem_cons_of_mem _ hl')
    rw [List.flatMap_cons, List.append_assoc, List.singleton_append, splitAt_append,
      splitAt_of_not_mem (hls l List.mem_cons_self), ih hrest, List.singleton_append, List.cons_append]

theorem byteLength_le_of_sublist {ds : List Char} (h : ds.Sublist cs) :
    byteLength ds ≤ byteLength cs := by
  have hsum : ∀ l : List Char, byteLength l = (l.map Char.utf8Size).sum := fun l => rfl
  rw [hsum, hsum]
  exact (h.map Char.utf8Size).sum_le_sum fun _ _ => Nat.zero_le _

end PocketBasic.Text
