import Mathlib
import PocketBasic.Proofs.Library.Keyed

/-!
# The history of a library

What calls have done to a library is told by its deeds: programs saved and deleted, one after another.
The savings under a name since it was last absent say which program is stored under it: what the last one
holds, with the identity and the time of the first.
-/

namespace PocketBasic.Library

/-- A draft that was saved, with the identity that was answered. -/
structure Saving where
  draft : Draft
  now : Int
  id : Nat

inductive Deed where
  | saved (name : String) (x : Saving)
  | deleted (name : String)

/-- The savings under a name since it was last absent, oldest first. -/
def savings (name : String) (deeds : List Deed) : List Saving :=
  deeds.foldl (fun kept deed => match deed with
    | .saved other x => if other = name then kept ++ [x] else kept
    | .deleted other => if other = name then [] else kept) []

/-- The program that savings under a name amount to. -/
def outcome? (name : String) : List Saving → Option Item
  | [] => none
  | first :: rest =>
    let last := rest.getLastD first
    some ⟨first.id, name, last.draft.description, last.draft.source, first.now, last.now⟩

inductive StoreCall where
  | save (d : Draft) (now : Int)
  | get (text : String)
  | list
  | delete (text : String)
  | seed (ds : List Draft) (now : Int)

namespace Store

/-- What seeding does: a saving for every draft that is added. -/
def seedDeeds (s : Store) (now : Int) : List Draft → List Deed
  | [] => []
  | d :: ds => match s.get d.name with
    | .ok _ => s.seedDeeds now ds
    | .error (.notFound name) => match s.save d now with
      | .ok (s', item) => .saved name ⟨d, now, item.id⟩ :: s'.seedDeeds now ds
      | .error _ => s.seedDeeds now ds
    | .error _ => []

end Store

namespace StoreCall

/-- The store after an operation, which is the one before if the operation fails, and how it fails. -/
def after {α : Type} (s : Store) (next : α → Store) : Except StoreError α → Store × Option StoreError
  | .ok x => (next x, none)
  | .error e => (s, some e)

/-- The store after a call, and how the call fails, if it does. -/
def answer (s : Store) : StoreCall → Store × Option StoreError
  | .save d now => after s (·.1) (s.save d now)
  | .get text => after s (fun _ => s) (s.get text)
  | .list => after s (fun _ => s) s.list
  | .delete text => after s id (s.delete text)
  | .seed ds now => ((s.seed now ds).1, (s.seed now ds).2.2)

def done {α : Type} (deed? : α → Option Deed) : Except StoreError α → List Deed
  | .ok x => (deed? x).toList
  | .error _ => []

def deeds (s : Store) : StoreCall → List Deed
  | .save d now => done (fun x => (normalize? d.name).map (.saved · ⟨d, now, x.2.id⟩)) (s.save d now)
  | .delete text => done (fun _ => (normalize? text).map .deleted) (s.delete text)
  | .seed ds now => s.seedDeeds now ds
  | .get _ | .list => []

def run (s : Store) (calls : List StoreCall) : Store :=
  calls.foldl (fun s call => (call.answer s).1) s

def history (s : Store) : List StoreCall → List Deed
  | [] => []
  | call :: calls => call.deeds s ++ history (call.answer s).1 calls

end StoreCall

variable {name other : String} {D : List Deed} {x : Saving} {d : Draft} {ds : List Draft} {now : Int}

theorem savings_saved (name other : String) (x : Saving) (D : List Deed) :
    savings name (D ++ [.saved other x]) =
      if other = name then savings name D ++ [x] else savings name D := by
  unfold savings
  rw [List.foldl_append]
  rfl

theorem savings_deleted (name other : String) (D : List Deed) :
    savings name (D ++ [.deleted other]) = if other = name then [] else savings name D := by
  unfold savings
  rw [List.foldl_append]
  rfl

/-- One more saving replaces what is held, or starts a program where there is none. -/
theorem outcome?_concat (name : String) (xs : List Saving) (x : Saving) :
    outcome? name (xs ++ [x]) = match outcome? name xs with
      | some old => some (old.revise x.draft x.now)
      | none => some ⟨x.id, name, x.draft.description, x.draft.source, x.now, x.now⟩ := by
  cases xs with
  | nil => rfl
  | cons first rest =>
    simp only [List.cons_append, outcome?, List.getLastD_concat]
    rfl

namespace Store

variable {s s' : Store} {item : Item} {text : String}

def Recorded (s : Store) (D : List Deed) : Prop := ∀ name, s.find? name = outcome? name (savings name D)

theorem recorded_empty : Recorded {} [] := fun _ => rfl

theorem recorded_save (h : s.InOrder) (hD : s.Recorded D) (hname : normalize? d.name = some name)
    (hsave : s.save d now = .ok (s', item)) : s'.Recorded (D ++ [.saved name ⟨d, now, item.id⟩]) := by
  obtain ⟨name', program, hname', -, -, hput⟩ := eq_put_of_save hsave
  cases hname.symm.trans hname'
  have hs' : s' = (s.put name d now).1 := by rw [hput]
  have hitem : (s.put name d now).2 = item := by rw [hput]
  intro other
  rw [hs', find?_put h.toKeyed, savings_saved]
  by_cases hother : other = name
  · subst hother
    rw [if_pos rfl, if_pos rfl, outcome?_concat, ← hD other]
    have hmade := put_item s other d now
    rw [hitem] at hmade ⊢
    cases hfind : s.find? other with
    | none =>
      rw [hfind] at hmade
      rw [hmade]
    | some old =>
      rw [hfind] at hmade
      rw [hmade]
  · rw [if_neg hother, if_neg fun h => hother h.symm]
    exact hD other

theorem recorded_erase (hD : s.Recorded D) (name : String) :
    (s.erase name).Recorded (D ++ [.deleted name]) := by
  intro other
  rw [find?_erase, savings_deleted]
  by_cases hother : other = name
  · rw [if_pos hother, if_pos hother.symm]
    rfl
  · rw [if_neg hother, if_neg fun h => hother h.symm]
    exact hD other

section

-- What a lookup and a saving compute plays no part in the steps of a seed.
attribute [local irreducible] get save

theorem seed_eq (s : Store) (now : Int) (d : Draft) (ds : List Draft) :
    s.seed now (d :: ds) = match s.get d.name with
      | .ok _ => s.seed now ds
      | .error (.notFound _) => match s.save d now with
        | .ok (s', _) => ((s'.seed now ds).1, (s'.seed now ds).2.1 + 1, (s'.seed now ds).2.2)
        | .error _ => s.seed now ds
      | .error e => (s, 0, some e) := rfl

theorem seedDeeds_eq (s : Store) (now : Int) (d : Draft) (ds : List Draft) :
    s.seedDeeds now (d :: ds) = match s.get d.name with
      | .ok _ => s.seedDeeds now ds
      | .error (.notFound name) => match s.save d now with
        | .ok (s', item) => .saved name ⟨d, now, item.id⟩ :: s'.seedDeeds now ds
        | .error _ => s.seedDeeds now ds
      | .error _ => [] := rfl

end

/-- Seeding stops at a draft without a proper name, passes over one that is stored or does not compile,
and saves any other. -/
theorem seed_cons (h : s.InOrder) (d : Draft) (now : Int) :
    (normalize? d.name = none ∧ ∀ ds, s.seed now (d :: ds) = (s, 0, some (.invalidName d.name)) ∧
        s.seedDeeds now (d :: ds) = []) ∨
      (∀ ds, s.seed now (d :: ds) = s.seed now ds ∧ s.seedDeeds now (d :: ds) = s.seedDeeds now ds) ∨
      ∃ name s' item, normalize? d.name = some name ∧ s.save d now = .ok (s', item) ∧
        ∀ ds, s.seed now (d :: ds) =
            ((s'.seed now ds).1, (s'.seed now ds).2.1 + 1, (s'.seed now ds).2.2) ∧
          s.seedDeeds now (d :: ds) = .saved name ⟨d, now, item.id⟩ :: s'.seedDeeds now ds := by
  cases hname : normalize? d.name with
  | none =>
    have hget := get_of_invalid (s := s) hname
    exact .inl ⟨rfl, fun ds => ⟨by rw [seed_eq, hget], by rw [seedDeeds_eq, hget]⟩⟩
  | some name =>
    have hget := get_of_name h.isOpen hname
    cases hfind : s.find? name with
    | some item =>
      rw [hfind] at hget
      exact .inr (.inl fun ds => ⟨by rw [seed_eq, hget], by rw [seedDeeds_eq, hget]⟩)
    | none =>
      rw [hfind] at hget
      cases hsave : s.save d now with
      | error e =>
        exact .inr (.inl fun ds => ⟨by rw [seed_eq, hget, hsave], by rw [seedDeeds_eq, hget, hsave]⟩)
      | ok x =>
        exact .inr (.inr ⟨name, x.1, x.2, rfl, rfl, fun ds =>
          ⟨by rw [seed_eq, hget, hsave], by rw [seedDeeds_eq, hget, hsave]⟩⟩)

/-- Seeding keeps the store in order, and its deeds tell what it did. -/
theorem seed_recorded (h : s.InOrder) (hD : s.Recorded D) (now : Int) (ds : List Draft) :
    (s.seed now ds).1.InOrder ∧ (s.seed now ds).1.Recorded (D ++ s.seedDeeds now ds) := by
  induction ds generalizing s D with
  | nil =>
    rw [show s.seedDeeds now [] = [] from rfl, List.append_nil]
    exact ⟨h, hD⟩
  | cons d ds ih =>
    rcases seed_cons h d now with ⟨-, hstop⟩ | hpass | ⟨name, s', item, hname, hsave, hstep⟩
    · rw [(hstop ds).1, (hstop ds).2, List.append_nil]
      exact ⟨h, hD⟩
    · rw [(hpass ds).1, (hpass ds).2]
      exact ih h hD
    · rw [(hstep ds).1, (hstep ds).2, List.append_cons]
      exact ih (inOrder_save h hsave) (recorded_save h hD hname hsave)

/-- A seed that fails stops at a draft without a proper name, and has done what seeding the drafts before
it does. -/
theorem seed_fails (h : s.InOrder) {e : StoreError} (hfail : (s.seed now ds).2.2 = some e) :
    ∃ front d behind, ds = front ++ d :: behind ∧ normalize? d.name = none ∧ e = .invalidName d.name ∧
      (s.seed now front).2.2 = none ∧ (s.seed now ds).1 = (s.seed now front).1 := by
  induction ds generalizing s with
  | nil => cases hfail
  | cons d ds ih =>
    rcases seed_cons h d now with ⟨hname, hstop⟩ | hpass | ⟨name, s', item, hname, hsave, hstep⟩
    · rw [(hstop ds).1] at hfail ⊢
      cases hfail
      exact ⟨[], d, ds, rfl, hname, rfl, rfl, rfl⟩
    · rw [(hpass ds).1] at hfail ⊢
      obtain ⟨front, bad, behind, rfl, hbad, he, hfront, hsame⟩ := ih h hfail
      refine ⟨d :: front, bad, behind, rfl, hbad, he, ?_⟩
      rw [(hpass front).1]
      exact ⟨hfront, hsame⟩
    · rw [(hstep ds).1] at hfail ⊢
      obtain ⟨front, bad, behind, rfl, hbad, he, hfront, hsame⟩ := ih (inOrder_save h hsave) hfail
      refine ⟨d :: front, bad, behind, rfl, hbad, he, ?_⟩
      rw [(hstep front).1]
      exact ⟨hfront, hsame⟩

theorem pairwise_mergeSort_names {items : List Item} (h : (items.map (·.name)).Nodup) :
    ((items.mergeSort fun a b => !(b.name < a.name)).map (·.name)).Pairwise (· < ·) := by
  have hnodup := ((List.mergeSort_perm items fun a b => !(b.name < a.name)).map (·.name)).nodup_iff.mpr h
  have hsorted : (items.mergeSort fun a b => !(b.name < a.name)).Pairwise
      fun a b => !(b.name < a.name) := by
    refine List.pairwise_mergeSort (fun a b c hab hbc => ?_) (fun a b => ?_) items
    · simp only [Bool.not_eq_true', decide_eq_false_iff_not, not_lt] at hab hbc ⊢
      exact hab.trans hbc
    · simpa [← not_lt] using le_total a.name b.name
  rw [List.pairwise_map]
  refine (hsorted.and (List.pairwise_map.mp hnodup)).imp fun {a b} hab => ?_
  have hle : a.name ≤ b.name := by
    simpa only [Bool.not_eq_true', decide_eq_false_iff_not, not_lt] using hab.1
  exact lt_of_le_of_ne hle hab.2

theorem list_spec (h : s.InOrder) :
    ∃ items : List Item, s.list = .ok (items.map Item.withoutSource) ∧
      (items.map (·.name)).Pairwise (· < ·) ∧ ∀ item, item ∈ items ↔ s.find? item.name = some item := by
  refine ⟨s.items.mergeSort fun a b => !(b.name < a.name), ?_, pairwise_mergeSort_names h.names,
    fun item => ?_⟩
  · rw [list, h.isOpen]
    rfl
  · rw [List.mem_mergeSort, find?_eq_some_iff h.toKeyed]
    exact (and_iff_left rfl).symm

end Store

namespace StoreCall

variable {s s' : Store} {e : StoreError}

theorem fst_after {α : Type} (s : Store) (answer : Except StoreError α) :
    (after s (fun _ => s) answer).1 = s := by
  cases answer with
  | ok x => rfl
  | error e => rfl

theorem after_of_failed {α : Type} {next : α → Store} {answer : Except StoreError α}
    (h : after s next answer = (s', some e)) : s' = s := by
  cases answer with
  | ok x => cases h
  | error e' => exact (Prod.mk.inj h).1.symm

/-- One call keeps the store in order and does what its deeds tell. -/
theorem answer_recorded (h : s.InOrder) (hD : s.Recorded D) (call : StoreCall) :
    (call.answer s).1.InOrder ∧ (call.answer s).1.Recorded (D ++ call.deeds s) := by
  cases call with
  | save d now =>
    rw [answer, deeds]
    cases hsave : s.save d now with
    | error e =>
      rw [done, List.append_nil]
      exact ⟨h, hD⟩
    | ok x =>
      obtain ⟨name, -, hname, -⟩ := Store.eq_put_of_save hsave
      rw [done, hname]
      exact ⟨Store.inOrder_save h hsave, Store.recorded_save h hD hname hsave⟩
  | delete text =>
    rw [answer, deeds]
    cases hdelete : s.delete text with
    | error e =>
      rw [done, List.append_nil]
      exact ⟨h, hD⟩
    | ok s' =>
      obtain ⟨name, -, hname, -, rfl⟩ := Store.eq_erase_of_delete hdelete
      rw [done, hname]
      exact ⟨Store.inOrder_erase h name, Store.recorded_erase hD name⟩
  | seed ds now => exact Store.seed_recorded h hD now ds
  | get text =>
    rw [answer, deeds, fst_after, List.append_nil]
    exact ⟨h, hD⟩
  | list =>
    rw [answer, deeds, fst_after, List.append_nil]
    exact ⟨h, hD⟩

theorem run_recorded (h : s.InOrder) (hD : s.Recorded D) (calls : List StoreCall) :
    (run s calls).InOrder ∧ (run s calls).Recorded (D ++ history s calls) := by
  induction calls generalizing s D with
  | nil =>
    rw [history, List.append_nil]
    exact ⟨h, hD⟩
  | cons call calls ih =>
    obtain ⟨horder, hrecorded⟩ := answer_recorded h hD call
    rw [history, ← List.append_assoc]
    exact ih horder hrecorded

def IsSeed : StoreCall → Prop
  | .seed _ _ => True
  | _ => False

theorem answer_of_failed (call : StoreCall) (hseed : ¬ call.IsSeed) (h : call.answer s = (s', some e)) :
    s' = s := by
  cases call with
  | seed ds now => exact absurd trivial hseed
  | save d now =>
    rw [answer] at h
    exact after_of_failed h
  | get text =>
    rw [answer] at h
    exact after_of_failed h
  | list =>
    rw [answer] at h
    exact after_of_failed h
  | delete text =>
    rw [answer] at h
    exact after_of_failed h

end StoreCall

namespace Store

/-- The store is a faithful map of programs that compile, from names to what its deeds amount to. -/
structure Faithful (s : Store) (D : List Deed) : Prop where
  sameName : ∀ text text', normalize? text = normalize? text' → (normalize? text).isSome →
    s.get text = s.get text' ∧ s.delete text = s.delete text' ∧ ∀ description source now,
      s.save ⟨text, description, source⟩ now = s.save ⟨text', description, source⟩ now
  got : ∀ text, s.get text = match normalize? text with
    | none => .error (.invalidName text)
    | some name => match outcome? name (savings name D) with
      | some item => .ok item
      | none => .error (.notFound name)
  listed : ∃ items : List Item, s.list = .ok (items.map Item.withoutSource) ∧
    (items.map (·.name)).Pairwise (· < ·) ∧
    ∀ item, item ∈ items ↔ outcome? item.name (savings item.name D) = some item
  deletes : ∀ text, (∃ s', s.delete text = .ok s') ↔ ∃ item, s.get text = .ok item
  deleted : ∀ text s', s.delete text = .ok s' → ∃ name, normalize? text = some name ∧
    ∀ other, s'.get other = if normalize? other = some name then .error (.notFound name) else s.get other
  unchanged : ∀ call s' e, ¬ StoreCall.IsSeed call → call.answer s = (s', some e) → s' = s
  seeded : ∀ ds now s' e, (StoreCall.seed ds now).answer s = (s', some e) →
    ∃ front d behind, ds = front ++ d :: behind ∧ normalize? d.name = none ∧ e = .invalidName d.name ∧
      (StoreCall.seed front now).answer s = (s', none)
  named : ∀ item ∈ s.items, normalize? item.name = some item.name
  compiles : ∀ item ∈ s.items, ∃ program, Program.compile item.source = .ok program

variable {s : Store}

theorem faithful (h : s.InOrder) (hD : s.Recorded D) : s.Faithful D where
  sameName text text' hsame hname := by
    obtain ⟨name, hname⟩ := Option.isSome_iff_exists.mp hname
    have hname' := hsame.symm.trans hname
    refine ⟨?_, ?_, fun description source now => ?_⟩
    · rw [get_of_name h.isOpen hname, get_of_name h.isOpen hname']
    · rw [delete_of_name h.isOpen hname, delete_of_name h.isOpen hname']
    · cases hcompile : Program.compile source with
      | error fault =>
        rw [save_of_fault (d := ⟨text, description, source⟩) hname hcompile,
          save_of_fault (d := ⟨text', description, source⟩) hname' hcompile]
      | ok program =>
        rw [save_of_name (d := ⟨text, description, source⟩) h.isOpen hname hcompile,
          save_of_name (d := ⟨text', description, source⟩) h.isOpen hname' hcompile]
        rfl
  got text := by
    cases hname : normalize? text with
    | none => exact get_of_invalid hname
    | some name =>
      have hget := get_of_name h.isOpen hname
      rw [hD name] at hget
      exact hget
  listed := by
    obtain ⟨items, hlist, hsorted, hmem⟩ := list_spec h
    exact ⟨items, hlist, hsorted, fun item => by rw [hmem item, hD item.name]⟩
  deletes text := by
    cases hname : normalize? text with
    | none =>
      rw [delete_of_invalid hname, get_of_invalid hname]
      simp
    | some name =>
      rw [delete_of_name h.isOpen hname, get_of_name h.isOpen hname]
      cases s.find? name <;> simp
  deleted text s' hdelete := by
    obtain ⟨name, item, hname, -, rfl⟩ := eq_erase_of_delete hdelete
    refine ⟨name, hname, fun other => ?_⟩
    cases hother : normalize? other with
    | none => rw [get_of_invalid hother, get_of_invalid hother, if_neg (by simp)]
    | some name' =>
      rw [get_of_name (s := s.erase name) h.isOpen hother, get_of_name h.isOpen hother, find?_erase]
      by_cases hsame : name' = name
      · rw [if_pos hsame, if_pos (congrArg some hsame), hsame]
      · rw [if_neg hsame, if_neg fun h => hsame (Option.some_inj.mp h)]
  unchanged call s' e hseed hfail := StoreCall.answer_of_failed call hseed hfail
  seeded ds now s' e hfail := by
    obtain ⟨hs', he⟩ := Prod.mk.inj hfail
    obtain ⟨front, d, behind, hds, hname, herror, hfront, hsame⟩ := seed_fails h he
    exact ⟨front, d, behind, hds, hname, herror, Prod.ext (hsame.symm.trans hs') hfront⟩
  named := h.named
  compiles := h.compiles

/-- Whatever calls are made to an empty library, it is a faithful map of the programs that were saved. -/
theorem faithful_run (calls : List StoreCall) :
    (StoreCall.run {} calls).Faithful (StoreCall.history {} calls) := by
  obtain ⟨horder, hrecorded⟩ := StoreCall.run_recorded inOrder_empty recorded_empty calls
  exact faithful horder hrecorded

/-- A seed that fails keeps what it had added: the draft before the one without a proper name. -/
theorem seed_keeps_front :
    let call : StoreCall := .seed [⟨"A", "", "Disp 1"⟩, ⟨"9X", "", "Disp 1"⟩] 0
    (call.answer {}).2.map StoreError.message = some (StoreError.invalidName "9X").message ∧
      (call.answer {}).1.items ≠ ({} : Store).items ∧ (call.answer {}).1.items.map (·.name) = ["A"] := by
  decide +kernel

end Store

end PocketBasic.Library
