import Mathlib.Data.List.Nodup

/-!
# Looking keys up

A key has the value of the first entry that is listed for it. Putting an entry in front of a list from which
the entries of its key were dropped gives the key a value and leaves all other keys alone.
-/

namespace PocketBasic

variable {α β : Type} [DecidableEq α] {k key : α} {v : β} {e : α × β} {l : List (α × β)}

theorem lookup_cons_of_ne (h : k ≠ e.1) : (e :: l).lookup k = l.lookup k := by
  rw [List.lookup_cons, beq_false_of_ne h]

theorem lookup_isSome_iff_mem : (l.lookup k).isSome ↔ k ∈ l.map Prod.fst := by
  rw [List.lookup_isSome_iff, List.mem_map]
  exact exists_congr fun e => and_congr_right fun _ => by rw [beq_iff_eq, eq_comm]

/-- Where no key occurs twice, a key has the value that it is listed with. -/
theorem lookup_eq_some_iff_mem (h : (l.map Prod.fst).Nodup) : l.lookup k = some v ↔ (k, v) ∈ l := by
  induction l with
  | nil => simp
  | cons e l ih =>
    obtain ⟨hfirst, hrest⟩ := List.nodup_cons.mp h
    by_cases hk : k = e.1
    · subst hk
      have hnot : (e.1, v) ∉ l := fun hmem => hfirst (List.mem_map.mpr ⟨_, hmem, rfl⟩)
      rw [List.lookup_cons_self, Option.some_inj, List.mem_cons, or_iff_left hnot]
      exact ⟨fun hv => hv ▸ rfl, fun hv => hv ▸ rfl⟩
    · have hne : (k, v) ≠ e := fun he => hk (he ▸ rfl)
      rw [lookup_cons_of_ne hk, List.mem_cons, or_iff_right hne]
      exact ih hrest

theorem lookup_filter_key (p : α → Bool) (l : List (α × β)) (k : α) :
    (l.filter fun e => p e.1).lookup k = if p k = true then l.lookup k else none := by
  induction l with
  | nil => simp
  | cons e l ih =>
    rw [List.filter_cons]
    by_cases hk : k = e.1
    · subst hk
      by_cases hp : p e.1 = true
      · rw [if_pos hp, if_pos hp, List.lookup_cons_self, List.lookup_cons_self]
      · rw [if_neg hp, ih, if_neg hp, if_neg hp]
    · rw [lookup_cons_of_ne hk, ← ih]
      by_cases hp : p e.1 = true
      · rw [if_pos hp, lookup_cons_of_ne hk]
      · rw [if_neg hp]

theorem lookup_filter_of_ne (hne : k ≠ key) (l : List (α × β)) :
    (l.filter (·.1 ≠ key)).lookup k = l.lookup k := by
  rw [lookup_filter_key (fun k => decide (k ≠ key)) l k, if_pos (decide_eq_true hne)]

theorem lookup_filter_self (key : α) (l : List (α × β)) :
    (l.filter (·.1 ≠ key)).lookup key = none := by
  rw [lookup_filter_key (fun k => decide (k ≠ key)) l key, if_neg (by simp)]

theorem lookup_replaced (key : α) (value : β) (l : List (α × β)) (k : α) :
    ((key, value) :: l.filter (·.1 ≠ key)).lookup k = if k = key then some value else l.lookup k := by
  by_cases hk : k = key
  · rw [hk, List.lookup_cons_self, if_pos rfl]
  · rw [if_neg hk, lookup_cons_of_ne hk, lookup_filter_of_ne hk]

/-- Where no key is listed twice, dropping entries takes the values of their keys. -/
theorem lookup_filter (hl : (l.map Prod.fst).Nodup) (p : α × β → Bool) (k : α) :
    (l.filter p).lookup k = (l.lookup k).filter fun value => p (k, value) := by
  have hfiltered : ((l.filter p).map Prod.fst).Nodup := hl.sublist (List.filter_sublist.map Prod.fst)
  ext v
  rw [lookup_eq_some_iff_mem hfiltered, List.mem_filter, Option.filter_eq_some_iff,
    lookup_eq_some_iff_mem hl]

end PocketBasic
