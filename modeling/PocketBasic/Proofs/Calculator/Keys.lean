import Mathlib
import PocketBasic.Calculator.KeyTable
import PocketBasic.Proofs.Entries

/-!
# Key maps in layers

A table of keys is laid over a key map one entry after the other. No code stands in a table twice, so each
entry speaks for its own code and the order of the entries makes no difference: neither to whether the
table is refused, nor to what the map says then.
-/

namespace PocketBasic.KeyMap

section Entries

variable {k : KeyMap} {code other : String} {number : Int}

theorem get?_erase (k : KeyMap) (code other : String) :
    (k.erase code).get? other = if other = code then none else k.get? other := by
  have hlookup := lookup_filter_key (· != code) k.entries other
  rw [erase, get?, hlookup]
  by_cases h : other = code
  · simp [h]
  · simp [h, get?]

theorem get?_insert (k : KeyMap) (code : String) (number : Int) (other : String) :
    (k.insert code number).get? other = if other = code then some number else k.get? other := by
  have herase := get?_erase k code other
  rw [insert, get?, List.lookup_append, ← get?, herase]
  by_cases h : other = code
  · subst h
    simp
  · simp [h, lookup_cons_of_ne]

def Refused (e : String × Int) : Prop := (Text.trim e.1).isEmpty = true ∨ e.2 < 0

def meaning (number : Int) : Option Int := if number = 0 then none else some number

theorem adjust_of_refused (k : KeyMap) (h : Refused (code, number)) :
    ∃ e, k.adjust code number = .error e := by
  unfold adjust
  split
  · exact ⟨_, rfl⟩
  · next hblank =>
    rw [if_pos (h.resolve_left hblank)]
    exact ⟨_, rfl⟩

theorem adjust_of_not_refused (k : KeyMap) (h : ¬ Refused (code, number)) :
    ∃ k', k.adjust code number = .ok k' ∧
      ∀ other, k'.get? other = if other = code then meaning number else k.get? other := by
  obtain ⟨hblank, hsign⟩ := not_or.mp h
  rw [adjust, if_neg hblank, if_neg hsign]
  by_cases hzero : number = 0
  · rw [if_pos hzero]
    refine ⟨_, rfl, fun other => ?_⟩
    rw [get?_erase, meaning, if_pos hzero]
  · rw [if_neg hzero]
    refine ⟨_, rfl, fun other => ?_⟩
    rw [get?_insert, meaning, if_neg hzero]

end Entries

section Tables

variable {k : KeyMap} {table order order' : List (String × Int)}

theorem adjustAll_of_refused {e : String × Int} (hmem : e ∈ table) (h : Refused e) (k : KeyMap) :
    ∃ fault, k.adjustAll table = .error fault := by
  induction table generalizing k with
  | nil => cases hmem
  | cons first rest ih =>
    obtain ⟨code, number⟩ := first
    rw [adjustAll]
    cases hfirst : k.adjust code number with
    | error fault => exact ⟨fault, rfl⟩
    | ok k' =>
      rcases List.mem_cons.mp hmem with rfl | hmem
      · obtain ⟨fault, hfault⟩ := adjust_of_refused k h
        cases hfirst.symm.trans hfault
      · exact ih hmem k'

theorem adjustAll_of_not_refused (hnone : ∀ e ∈ table, ¬ Refused e)
    (hdistinct : (table.map Prod.fst).Nodup) (k : KeyMap) :
    ∃ k', k.adjustAll table = .ok k' ∧ ∀ code, k'.get? code =
      match table.lookup code with
      | some number => meaning number
      | none => k.get? code := by
  induction table generalizing k with
  | nil => exact ⟨k, rfl, fun _ => rfl⟩
  | cons first rest ih =>
    obtain ⟨code, number⟩ := first
    obtain ⟨hfirst, hrest⟩ := List.nodup_cons.mp hdistinct
    obtain ⟨hnot, hothers⟩ := List.forall_mem_cons.mp hnone
    obtain ⟨k₁, hk₁, hget₁⟩ := adjust_of_not_refused k hnot
    obtain ⟨k₂, hk₂, hget₂⟩ := ih hothers hrest k₁
    refine ⟨k₂, by rw [adjustAll, hk₁]; exact hk₂, fun other => ?_⟩
    rw [hget₂, hget₁]
    by_cases h : other = code
    · subst h
      have hnone : rest.lookup other = none := by
        rwa [← Option.not_isSome_iff_eq_none, lookup_isSome_iff_mem]
      rw [hnone, List.lookup_cons_self, if_pos rfl]
    · rw [lookup_cons_of_ne h, if_neg h]

theorem lookup_perm (hdistinct : (table.map Prod.fst).Nodup) (h : order.Perm table) (code : String) :
    order.lookup code = table.lookup code := by
  ext number
  rw [lookup_eq_some_iff_mem hdistinct, lookup_eq_some_iff_mem ((h.map Prod.fst).nodup_iff.mpr hdistinct),
    h.mem_iff]

end Tables

/-- The map has what the table says, and what the other map says where the table does not mention a code. -/
structure LaidOver (base : KeyMap) (table : List (String × Int)) (k : KeyMap) : Prop where
  positive : ∀ code number, (code, number) ∈ table → 0 < number → k.get? code = some number
  zero : ∀ code, (code, 0) ∈ table → k.get? code = none
  unmentioned : ∀ code, code ∉ table.map Prod.fst → k.get? code = base.get? code

theorem laidOver_of_get? {base k : KeyMap} {table : List (String × Int)}
    (hdistinct : (table.map Prod.fst).Nodup)
    (h : ∀ code, k.get? code = match table.lookup code with
      | some number => meaning number
      | none => base.get? code) : LaidOver base table k where
  positive code number hmem hpos := by
    rw [h, (lookup_eq_some_iff_mem hdistinct).mpr hmem]
    exact if_neg hpos.ne'
  zero code hmem := by
    rw [h, (lookup_eq_some_iff_mem hdistinct).mpr hmem]
    exact if_pos rfl
  unmentioned code hnot := by
    have hnone : table.lookup code = none := by
      rwa [← Option.not_isSome_iff_eq_none, lookup_isSome_iff_mem]
    rw [h, hnone]

/-- What holds of a table that is laid over the built-in map, whatever the order of its entries: any two
orders fail alike or give the same map, the table is refused for its entries alone, and the map is the
built-in one with the changes of the table. -/
structure LayersInAnyOrder (table : List (String × Int)) : Prop where
  same : ∀ order order' : List (String × Int), order.Perm table → order'.Perm table →
    ((∃ e, builtin.adjustAll order = .error e) ∧ ∃ e, builtin.adjustAll order' = .error e) ∨
      ∃ k k', builtin.adjustAll order = .ok k ∧ builtin.adjustAll order' = .ok k' ∧
        ∀ code, k.get? code = k'.get? code
  fails : ∀ order : List (String × Int), order.Perm table →
    ((∃ e, builtin.adjustAll order = .error e) ↔
      ∃ e ∈ table, (Text.trim e.1).isEmpty = true ∨ e.2 < 0)
  laid : ∀ (order : List (String × Int)) k, order.Perm table → builtin.adjustAll order = .ok k →
    LaidOver builtin table k

theorem layersInAnyOrder_of_distinct {table : List (String × Int)}
    (hdistinct : (table.map Prod.fst).Nodup) : LayersInAnyOrder table := by
  by_cases hrefused : ∃ e ∈ table, Refused e
  · have hfails (order : List (String × Int)) (h : order.Perm table) :
        ∃ fault, builtin.adjustAll order = .error fault := by
      obtain ⟨e, he, hr⟩ := hrefused
      exact adjustAll_of_refused (h.mem_iff.mpr he) hr builtin
    refine ⟨fun order order' h h' => .inl ⟨hfails order h, hfails order' h'⟩,
      fun order h => iff_of_true (hfails order h) hrefused, fun order k h hk => ?_⟩
    obtain ⟨fault, hfault⟩ := hfails order h
    cases hk.symm.trans hfault
  · have hgives (order : List (String × Int)) (h : order.Perm table) :
        ∃ k, builtin.adjustAll order = .ok k ∧ ∀ code, k.get? code =
          match table.lookup code with
          | some number => meaning number
          | none => builtin.get? code := by
      have hnone : ∀ e ∈ order, ¬ Refused e := fun e he hr => hrefused ⟨e, h.mem_iff.mp he, hr⟩
      obtain ⟨k, hk, hget⟩ := adjustAll_of_not_refused hnone ((h.map Prod.fst).nodup_iff.mpr hdistinct) builtin
      refine ⟨k, hk, fun code => ?_⟩
      rw [hget, lookup_perm hdistinct h]
    refine ⟨fun order order' h h' => ?_, fun order h => ?_, fun order k h hk => ?_⟩
    · obtain ⟨k, hk, hget⟩ := hgives order h
      obtain ⟨k', hk', hget'⟩ := hgives order' h'
      exact .inr ⟨k, k', hk, hk', fun code => (hget code).trans (hget' code).symm⟩
    · refine iff_of_false ?_ hrefused
      rintro ⟨fault, hfault⟩
      obtain ⟨k, hk, -⟩ := hgives order h
      cases hk.symm.trans hfault
    · obtain ⟨k', hk', hget⟩ := hgives order h
      cases hk.symm.trans hk'
      exact laidOver_of_get? hdistinct hget

/-! ### Tables from documents -/

theorem ofDocument_of_table {reader : TableReader} {text : String} {table : List (String × Int)}
    (h : reader.read? text = some table) : ofDocument reader text = builtin.adjustAll table := by
  unfold ofDocument
  split
  · next hempty =>
    obtain rfl := String.isEmpty_iff.mp hempty
    cases h.symm.trans reader.read?_empty
    rfl
  · rw [h]

/-- A table may be read in any order, the tables of documents among them, and the built-in map has the keys of
the numeric pad as second names. -/
theorem layers_in_any_order :
    (∀ table : List (String × Int), (table.map Prod.fst).Nodup → LayersInAnyOrder table) ∧
      (∀ (reader : TableReader) text table, reader.read? text = some table →
        (table.map Prod.fst).Nodup ∧ ofDocument reader text = builtin.adjustAll table) ∧
      (∀ d < 10, builtin.get? ("Numpad" ++ toString d) = builtin.get? ("Digit" ++ toString d)) ∧
      builtin.get? "NumpadEnter" = builtin.get? "Enter" := by
  refine ⟨fun table hdistinct => layersInAnyOrder_of_distinct hdistinct, fun reader text table h => ?_, ?_,
    by decide⟩
  · exact ⟨reader.distinct text table h, ofDocument_of_table h⟩
  · decide

/-- A document that moves one key, adds one and takes one away. -/
def leftHanded : String := "[keys]\nDigit5 = 84\nKeyW = 25\nArrowUp = 0\n"

def leftHandedTable : List (String × Int) := [("Digit5", 84), ("KeyW", 25), ("ArrowUp", 0)]

theorem layers_in_any_order_leftHanded :
    TableReader.toml.read? leftHanded = some leftHandedTable ∧ LayersInAnyOrder leftHandedTable ∧
      ∃ k, ofDocument .toml leftHanded = .ok k ∧ k.get? "Digit5" = some 84 ∧ k.get? "KeyW" = some 25 ∧
        k.get? "ArrowUp" = none ∧ k.get? "Numpad5" = some 83 := by
  have hread : TableReader.toml.read? leftHanded = some leftHandedTable := by decide +kernel
  obtain ⟨hdistinct, hdocument⟩ := layers_in_any_order.2.1 .toml leftHanded leftHandedTable hread
  rw [hdocument]
  exact ⟨hread, layers_in_any_order.1 leftHandedTable hdistinct, _, rfl, by decide, by decide, by decide,
    by decide⟩

end PocketBasic.KeyMap
