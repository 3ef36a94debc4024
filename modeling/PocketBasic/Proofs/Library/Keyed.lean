import Mathlib
import PocketBasic.Library.Store
import PocketBasic.Proofs.Text.Pieces

/-!
# The store by name and by identity

A name is its own normal form. Names and identities are keys of the stored programs: saving and deleting
keep it so, and what they do to the store can be said through `find?`.
-/

namespace PocketBasic.Library

section Names

variable {text name : String} {c : Char}

theorem toNat_of_isNameChar (h : isNameChar c = true) : 48 ≤ c.toNat ∧ c.toNat ≤ 90 := by
  simp only [isNameChar, isNameLetter, Bool.or_eq_true, Bool.and_eq_true, decide_eq_true_eq,
    Char.le_def, UInt32.le_iff_toNat_le] at h
  have hchar : c.toNat = c.val.toNat := rfl
  have hA : 'A'.val.toNat = 65 := rfl
  have hZ : 'Z'.val.toNat = 90 := rfl
  have h0 : '0'.val.toNat = 48 := rfl
  have h9 : '9'.val.toNat = 57 := rfl
  omega

theorem isBlank_of_isNameChar (h : isNameChar c = true) : Text.isBlank c = false := by
  have hrange := toNat_of_isNameChar h
  exact Text.isBlank_of_visible (by omega) (by omega)

theorem upperChar_of_isNameChar (h : isNameChar c = true) : Text.upperChar c = c := by
  have hrange := toNat_of_isNameChar h
  have hlower : ¬ (c.val ≥ 'a'.val ∧ c.val ≤ 'z'.val) := fun ⟨ha, _⟩ => by
    have hchar : c.toNat = c.val.toNat := rfl
    have hle : 97 ≤ c.val.toNat := UInt32.le_iff_toNat_le.mp ha
    omega
  unfold Text.upperChar
  rw [if_neg (by omega), if_neg (by omega), Char.toUpper, dif_neg hlower]

theorem isNameChar_of_isName (h : isName name = true) : ∀ c ∈ name.toList, isNameChar c = true := by
  unfold isName at h
  split at h
  · cases h
  · next first rest hname =>
    rw [hname]
    simp only [Bool.and_eq_true] at h
    intro c hc
    rcases List.mem_cons.mp hc with rfl | hc
    · rw [isNameChar, h.1.1, Bool.true_or]
    · exact List.all_eq_true.mp h.1.2 c hc

theorem normalize?_of_isName (h : isName name = true) : normalize? name = some name := by
  have hchars := isNameChar_of_isName h
  have htrim : Text.trim name = name := by
    rw [Text.trim, Text.trimChars_eq_self, String.ofList_toList]
    · exact fun c hc => isBlank_of_isNameChar (hchars c (List.mem_of_head? hc))
    · exact fun c hc => isBlank_of_isNameChar (hchars c (List.mem_of_getLast? hc))
  have hupper : Text.upper name = name := by
    have hsame : name.toList.map Text.upperChar = name.toList :=
      (List.map_congr_left fun c hc => upperChar_of_isNameChar (hchars c hc)).trans (List.map_id _)
    rw [Text.upper, hsame, String.ofList_toList]
  rw [normalize?, htrim, hupper, if_pos h]

theorem normalize?_idem (h : normalize? text = some name) : normalize? name = some name := by
  simp only [normalize?, Option.ite_none_right_eq_some, Option.some_inj] at h
  obtain ⟨hname, rfl⟩ := h
  exact normalize?_of_isName hname

end Names

namespace Store

variable {s s' : Store} {text name other : String} {d : Draft} {now : Int} {item : Item}
  {program : Program} {fault : Fault}

/-! ### What the operations answer -/

theorem get_of_name (hopen : s.closed = false) (hname : normalize? text = some name) :
    s.get text = match s.find? name with
      | some item => .ok item
      | none => .error (.notFound name) := by
  simp only [get, checkName, hname, hopen]
  rfl

theorem get_of_invalid (hname : normalize? text = none) : s.get text = .error (.invalidName text) := by
  simp only [get, checkName, hname]
  rfl

theorem save_of_name (hopen : s.closed = false) (hname : normalize? d.name = some name)
    (hcompile : Program.compile d.source = .ok program) : s.save d now = .ok (s.put name d now) := by
  simp only [save, checkName, hname, hcompile, hopen]
  rfl

theorem save_of_fault (hname : normalize? d.name = some name)
    (hcompile : Program.compile d.source = .error fault) : s.save d now = .error (.compile fault) := by
  simp only [save, checkName, hname, hcompile]
  rfl

theorem save_of_invalid (hname : normalize? d.name = none) :
    s.save d now = .error (.invalidName d.name) := by
  simp only [save, checkName, hname]
  rfl

def erase (s : Store) (name : String) : Store := { s with items := s.items.filter (·.name ≠ name) }

theorem delete_of_name (hopen : s.closed = false) (hname : normalize? text = some name) :
    s.delete text = match s.find? name with
      | some _ => .ok (s.erase name)
      | none => .error (.notFound name) := by
  obtain ⟨items, nextId, closed⟩ := s
  cases hopen
  simp only [delete, checkName, hname]
  rfl

theorem delete_of_invalid (hname : normalize? text = none) :
    s.delete text = .error (.invalidName text) := by
  simp only [delete, checkName, hname]
  rfl

theorem eq_put_of_save (h : s.save d now = .ok (s', item)) :
    ∃ name program, normalize? d.name = some name ∧ Program.compile d.source = .ok program ∧
      s.closed = false ∧ s.put name d now = (s', item) := by
  cases hname : normalize? d.name with
  | none =>
    rw [save_of_invalid hname] at h
    cases h
  | some name =>
    cases hcompile : Program.compile d.source with
    | error fault =>
      rw [save_of_fault hname hcompile] at h
      cases h
    | ok program =>
      cases hopen : s.closed with
      | true =>
        simp only [save, checkName, hname, hcompile, hopen] at h
        cases h
      | false =>
        rw [save_of_name hopen hname hcompile] at h
        exact ⟨name, program, rfl, rfl, rfl, Except.ok.inj h⟩

/-! ### Keys -/

/-- No name and no identity occurs twice, and the next identity is new. -/
structure Keyed (s : Store) : Prop where
  names : (s.items.map (·.name)).Nodup
  ids : (s.items.map (·.id)).Nodup
  fresh : ∀ i ∈ s.items, i.id < s.nextId

theorem keyed_empty : Keyed {} where
  names := List.nodup_nil
  ids := List.nodup_nil
  fresh _ hi := absurd hi List.not_mem_nil

theorem mem_of_find? (h : s.find? name = some item) : item ∈ s.items := List.mem_of_find?_eq_some h

theorem name_of_find? (h : s.find? name = some item) : item.name = name := by
  have hname := List.find?_some h
  exact of_decide_eq_true hname

theorem find?_eq_none_iff : s.find? name = none ↔ name ∉ s.items.map (·.name) := by
  simp [find?]

theorem Keyed.eq_of_name (h : s.Keyed) {i j : Item} (hi : i ∈ s.items) (hj : j ∈ s.items)
    (hname : i.name = j.name) : i = j := List.inj_on_of_nodup_map h.names hi hj hname

theorem find?_eq_some_iff (h : s.Keyed) :
    s.find? name = some item ↔ item ∈ s.items ∧ item.name = name := by
  constructor
  · exact fun hfind => ⟨mem_of_find? hfind, name_of_find? hfind⟩
  · rintro ⟨hmem, rfl⟩
    cases hfind : s.find? item.name with
    | none => exact absurd (List.mem_map_of_mem hmem) (find?_eq_none_iff.mp hfind)
    | some other => rw [h.eq_of_name (mem_of_find? hfind) hmem (name_of_find? hfind)]

theorem put_item (s : Store) (name : String) (d : Draft) (now : Int) :
    (s.put name d now).2 = match s.find? name with
      | some old => old.revise d now
      | none => ⟨s.nextId, name, d.description, d.source, now, now⟩ := by
  unfold put
  cases s.find? name with
  | none => rfl
  | some old => rfl

theorem put_of_none (hnew : s.find? name = none) (d : Draft) (now : Int) :
    (s.put name d now).1 =
      { s with
        items := s.items ++ [⟨s.nextId, name, d.description, d.source, now, now⟩]
        nextId := s.nextId + 1 } := by
  simp only [put, hnew]

/-- Revises the item of a name and no other. -/
def reviseNamed (name : String) (d : Draft) (now : Int) (i : Item) : Item :=
  if i.name = name then i.revise d now else i

@[simp] theorem reviseNamed_name (name : String) (d : Draft) (now : Int) (i : Item) :
    (reviseNamed name d now i).name = i.name := by
  unfold reviseNamed
  split <;> rfl

@[simp] theorem reviseNamed_id (name : String) (d : Draft) (now : Int) (i : Item) :
    (reviseNamed name d now i).id = i.id := by
  unfold reviseNamed
  split <;> rfl

/-- Saving over a program changes the item of its name alone, since no other has its identity. -/
theorem put_of_some (h : s.Keyed) {old : Item} (hold : s.find? name = some old) (d : Draft) (now : Int) :
    (s.put name d now).1 = { s with items := s.items.map (reviseNamed name d now) } := by
  have hmem := mem_of_find? hold
  have hname := name_of_find? hold
  simp only [put, hold]
  congr 1
  refine List.map_congr_left fun i hi => ?_
  unfold reviseNamed
  by_cases hid : i.id = old.id
  · rw [List.inj_on_of_nodup_map h.ids hi hmem hid, if_pos rfl, if_pos hname]
  · rw [if_neg hid, if_neg fun hi' => hid (by rw [h.eq_of_name hi hmem (hi'.trans hname.symm)])]

theorem keyed_put (h : s.Keyed) (name : String) (d : Draft) (now : Int) : (s.put name d now).1.Keyed := by
  cases hfind : s.find? name with
  | none =>
    rw [put_of_none hfind]
    have hname := find?_eq_none_iff.mp hfind
    have hid : s.nextId ∉ s.items.map (·.id) := fun hmem => by
      obtain ⟨i, hi, hid⟩ := List.mem_map.mp hmem
      have hlt := h.fresh i hi
      omega
    refine ⟨?_, ?_, fun i hi => ?_⟩
    · simpa [List.nodup_append, h.names] using hname
    · simpa [List.nodup_append, h.ids] using hid
    · rcases List.mem_append.mp hi with hi | hi
      · exact Nat.lt_succ_of_lt (h.fresh i hi)
      · rw [List.mem_singleton.mp hi]
        exact Nat.lt_succ_self _
  | some old =>
    rw [put_of_some h hfind]
    refine ⟨?_, ?_, fun i hi => ?_⟩
    · simpa only [List.map_map, Function.comp_def, reviseNamed_name] using h.names
    · simpa only [List.map_map, Function.comp_def, reviseNamed_id] using h.ids
    · obtain ⟨j, hj, rfl⟩ := List.mem_map.mp hi
      rw [reviseNamed_id]
      exact h.fresh j hj

/-- A program that was saved is found under its name, and all others as before. -/
theorem find?_put (h : s.Keyed) (name other : String) (d : Draft) (now : Int) :
    (s.put name d now).1.find? other =
      if other = name then some (s.put name d now).2 else s.find? other := by
  rw [put_item]
  cases hfind : s.find? name with
  | none =>
    have happ : (s.put name d now).1.find? other = (s.find? other).or
        (List.find? (·.name = other) [⟨s.nextId, name, d.description, d.source, now, now⟩]) := by
      rw [put_of_none hfind]
      exact List.find?_append
    rw [happ]
    by_cases hother : other = name
    · rw [hother, hfind, if_pos rfl]
      simp
    · have hne : ¬ name = other := fun h => hother h.symm
      simp [hother, hne]
  | some old =>
    have hmap : (s.put name d now).1.find? other = (s.find? other).map (reviseNamed name d now) := by
      rw [put_of_some h hfind]
      simp only [find?, List.find?_map, Function.comp_def, reviseNamed_name]
    rw [hmap]
    by_cases hother : other = name
    · rw [hother, hfind, if_pos rfl, Option.map_some, reviseNamed, if_pos (name_of_find? hfind)]
    · rw [if_neg hother]
      cases hitem : s.find? other with
      | none => rfl
      | some item =>
        have hname : ¬ item.name = name := fun h => hother ((name_of_find? hitem).symm.trans h)
        rw [Option.map_some, reviseNamed, if_neg hname]

theorem keyed_erase (h : s.Keyed) (name : String) : (s.erase name).Keyed where
  names := (List.filter_sublist.map _).nodup h.names
  ids := (List.filter_sublist.map _).nodup h.ids
  fresh i hi := h.fresh i (List.mem_of_mem_filter hi)

/-- A program that was deleted is not found any more, and all others as before. -/
theorem find?_erase (s : Store) (name other : String) :
    (s.erase name).find? other = if other = name then none else s.find? other := by
  unfold erase find?
  rw [List.find?_filter]
  by_cases hother : other = name
  · rw [if_pos hother, List.find?_eq_none]
    intro i _
    simp [hother]
  · rw [if_neg hother]
    congr 1
    funext i
    by_cases hi : i.name = other <;> simp [hi, hother]

def others (s : Store) (name? : Option String) : List Item := s.items.filter fun i => some i.name ≠ name?

theorem others_put (h : s.Keyed) (name : String) (d : Draft) (now : Int) :
    (s.put name d now).1.others (some name) = s.others (some name) := by
  unfold others
  cases hfind : s.find? name with
  | none =>
    rw [put_of_none hfind, List.filter_append]
    simp
  | some old =>
    rw [put_of_some h hfind, List.filter_map]
    simp only [Function.comp_def, reviseNamed_name]
    refine (List.map_congr_left fun i hi => ?_).trans (List.map_id _)
    have hname : i.name ≠ name := by simpa using (List.mem_filter.mp hi).2
    rw [reviseNamed, if_neg hname, id]

theorem others_erase (s : Store) (name : String) :
    (s.erase name).others (some name) = s.others (some name) := by
  unfold others erase
  rw [List.filter_filter]
  refine List.filter_congr fun i _ => ?_
  simp

/-! ### Stores as they come about -/

/-- An open store whose programs all have names and compile. -/
structure InOrder (s : Store) : Prop extends Keyed s where
  isOpen : s.closed = false
  named : ∀ i ∈ s.items, normalize? i.name = some i.name
  compiles : ∀ i ∈ s.items, ∃ program, Program.compile i.source = .ok program

theorem inOrder_empty : InOrder {} where
  toKeyed := keyed_empty
  isOpen := rfl
  named _ hi := absurd hi List.not_mem_nil
  compiles _ hi := absurd hi List.not_mem_nil

theorem closed_put (s : Store) (name : String) (d : Draft) (now : Int) :
    (s.put name d now).1.closed = s.closed := by
  unfold put
  cases s.find? name with
  | none => rfl
  | some old => rfl

/-- A stored program after a saving is the one that was saved or one that was there before. -/
theorem mem_put (h : s.Keyed) (hi : item ∈ (s.put name d now).1.items) :
    item = (s.put name d now).2 ∨ item ∈ s.items := by
  have hfind := (find?_eq_some_iff (keyed_put h name d now)).mpr ⟨hi, rfl⟩
  rw [find?_put h] at hfind
  split at hfind
  · exact .inl (Option.some_inj.mp hfind).symm
  · exact .inr (mem_of_find? hfind)

theorem put_item_name (s : Store) (name : String) (d : Draft) (now : Int) :
    (s.put name d now).2.name = name := by
  rw [put_item]
  split
  · next old hold =>
    have hname : old.name = name := name_of_find? hold
    exact hname
  · rfl

theorem put_item_source (s : Store) (name : String) (d : Draft) (now : Int) :
    (s.put name d now).2.source = d.source := by
  rw [put_item]
  split <;> rfl

theorem inOrder_save (h : s.InOrder) (hsave : s.save d now = .ok (s', item)) : s'.InOrder := by
  obtain ⟨name, program, hname, hcompile, -, hput⟩ := eq_put_of_save hsave
  have hs' : s' = (s.put name d now).1 := by rw [hput]
  subst hs'
  refine ⟨keyed_put h.toKeyed name d now, (closed_put s name d now).trans h.isOpen, fun i hi => ?_,
    fun i hi => ?_⟩
  · rcases mem_put h.toKeyed hi with rfl | hi
    · rw [put_item_name]
      exact normalize?_idem hname
    · exact h.named i hi
  · rcases mem_put h.toKeyed hi with rfl | hi
    · rw [put_item_source]
      exact ⟨program, hcompile⟩
    · exact h.compiles i hi

theorem inOrder_erase (h : s.InOrder) (name : String) : (s.erase name).InOrder where
  toKeyed := keyed_erase h.toKeyed name
  isOpen := h.isOpen
  named i hi := h.named i (List.mem_of_mem_filter hi)
  compiles i hi := h.compiles i (List.mem_of_mem_filter hi)

theorem eq_erase_of_delete (h : s.delete text = .ok s') :
    ∃ name item, normalize? text = some name ∧ s.find? name = some item ∧ s' = s.erase name := by
  cases hname : normalize? text with
  | none =>
    rw [delete_of_invalid hname] at h
    cases h
  | some name =>
    cases hopen : s.closed with
    | true =>
      simp only [delete, checkName, hname, hopen] at h
      cases h
    | false =>
      rw [delete_of_name hopen hname] at h
      split at h
      · next item hfind =>
        cases h
        exact ⟨name, item, rfl, hfind, rfl⟩
      · cases h

end Store

end PocketBasic.Library
