import Mathlib
import PocketBasic.Proofs.Entries
import PocketBasic.Remote.Registry

/-!
# Clients that come and go

Clients are added and removed in any order, and now and then all are taken off. Whatever the order, the
client of a session is the one that was added last, until that very client is removed or all are taken off.
The end of a connection whose place was taken comes late and changes nothing.
-/

namespace PocketBasic.Remote

structure Client where
  session : String
  id : Nat
deriving DecidableEq, Repr

namespace Registry

section Lookups

variable {r : Registry} {session other : String} {client n : Nat}

theorem client?_filter_self (r : Registry) (session : String) :
    client? (r.filter (·.1 ≠ session)) session = none := lookup_filter_self session r

theorem client?_add (r : Registry) (session : String) (client : Nat) (other : String) :
    client? (r.add session client).1 other =
      if other = session then some client else r.client? other := lookup_replaced session client r other

theorem client?_remove_of_ne (hne : other ≠ session) (r : Registry) (client : Nat) :
    client? (r.remove session client) other = r.client? other := by
  unfold remove
  split
  · exact lookup_filter_of_ne hne r
  · rfl

theorem client?_remove_self (r : Registry) (session : String) (client : Nat) :
    client? (r.remove session client) session = some n ↔
      r.client? session = some n ∧ n ≠ client := by
  unfold remove
  split
  · next h =>
    rw [client?_filter_self, h, Option.some_inj]
    constructor
    · intro hn
      cases hn
    · rintro ⟨rfl, hne⟩
      exact absurd rfl hne
  · next h =>
    refine ⟨fun hn => ⟨hn, ?_⟩, fun hn => hn.1⟩
    rintro rfl
    exact h hn

theorem client?_of_remove (h : client? (r.remove session client) other = some n) :
    r.client? other = some n := by
  by_cases hother : other = session
  · subst hother
    exact ((client?_remove_self r other client).mp h).1
  · rwa [client?_remove_of_ne hother] at h

end Lookups

inductive Call where
  | add (c : Client)
  | remove (c : Client)
  | clear
deriving DecidableEq, Repr

def Call.added? : Call → Option Client
  | .add c => some c
  | .remove _ | .clear => none

def apply (r : Registry) : Call → Registry
  | .add c => (r.add c.session c.id).1
  | .remove c => r.remove c.session c.id
  | .clear => r.clear.1

/-- The client whose place is taken, which the call gives back to be closed. -/
def displaced? (r : Registry) : Call → Option Client
  | .add c => (r.add c.session c.id).2.map (Client.mk c.session)
  | .remove _ | .clear => none

def after (calls : List Call) : Registry := calls.foldl apply []

/-- The clients that the calls give back one after the other. -/
def displaced (r : Registry) : List Call → List Client
  | [] => []
  | call :: calls => (r.displaced? call).toList ++ displaced (r.apply call) calls

/-- The client was added after all others of its session, and since then neither was it removed nor were
all taken off. -/
def Attached (calls : List Call) (c : Client) : Prop :=
  ∃ before later, calls = before ++ .add c :: later ∧ .remove c ∉ later ∧ .clear ∉ later ∧
    ∀ d, .add d ∈ later → d.session ≠ c.session

/-- Another client of the session was added while the client was attached. -/
def Replaced (calls : List Call) (c : Client) : Prop :=
  ∃ before d later, calls = before ++ .add d :: later ∧ d.session = c.session ∧ Attached before c

/-- A call that leaves a client where it is. -/
def Call.Spares (c : Client) (call : Call) : Prop :=
  call ≠ .remove c ∧ call ≠ .clear ∧ ∀ d, call = .add d → d.session ≠ c.session

section Histories

variable {calls : List Call} {call : Call} {c : Client}

theorem not_attached_nil (c : Client) : ¬ Attached [] c := by
  rintro ⟨before, later, h, -⟩
  simp at h

/-- A list with one more at its end is split at that last one or before it. -/
theorem concat_eq_append_cons_iff {α : Type} {l before later : List α} {x last : α} :
    l ++ [last] = before ++ x :: later ↔
      (before = l ∧ x = last ∧ later = []) ∨
        ∃ later', later = later' ++ [last] ∧ l = before ++ x :: later' := by
  rcases List.eq_nil_or_concat' later with rfl | ⟨later, last', rfl⟩
  · constructor
    · intro h
      obtain ⟨rfl, hlast⟩ := List.append_inj' h rfl
      exact .inl ⟨rfl, (List.singleton_inj.mp hlast).symm, rfl⟩
    · rintro (⟨rfl, rfl, -⟩ | ⟨later', h, -⟩)
      · rfl
      · simp at h
  · constructor
    · intro h
      rw [← List.cons_append, ← List.append_assoc] at h
      obtain ⟨rfl, hlast⟩ := List.append_inj' h rfl
      obtain rfl := List.singleton_inj.mp hlast
      exact .inr ⟨later, rfl, rfl⟩
    · rintro (⟨-, -, h⟩ | ⟨later', h, rfl⟩)
      · simp at h
      · rw [h, List.append_assoc, List.cons_append]

theorem attached_concat_iff (calls : List Call) (call : Call) (c : Client) :
    Attached (calls ++ [call]) c ↔ call = .add c ∨ Attached calls c ∧ call.Spares c := by
  constructor
  · rintro ⟨before, later, hsplit, hremove, hclear, hadd⟩
    rcases concat_eq_append_cons_iff.mp hsplit with ⟨-, hlast, -⟩ | ⟨later, rfl, rfl⟩
    · exact .inl hlast.symm
    · simp only [List.mem_append, List.mem_singleton, not_or] at hremove hclear hadd
      refine .inr ⟨⟨before, later, rfl, hremove.1, hclear.1, fun d hd => hadd d (.inl hd)⟩, ?_⟩
      exact ⟨fun h => hremove.2 h.symm, fun h => hclear.2 h.symm, fun d hd => hadd d (.inr hd.symm)⟩
  · rintro (rfl | ⟨⟨before, later, rfl, hremove, hclear, hadd⟩, hremove', hclear', hadd'⟩)
    · exact ⟨calls, [], rfl, by simp, by simp, by simp⟩
    · refine ⟨before, later ++ [call], by simp, ?_, ?_, ?_⟩
      · simpa [hremove] using hremove'.symm
      · simpa [hclear] using hclear'.symm
      · intro d hd
        rcases List.mem_append.mp hd with hd | hd
        · exact hadd d hd
        · exact hadd' d (List.mem_singleton.mp hd).symm

theorem replaced_concat_iff (calls : List Call) (call : Call) (c : Client) :
    Replaced (calls ++ [call]) c ↔
      Replaced calls c ∨ ∃ d, call = .add d ∧ d.session = c.session ∧ Attached calls c := by
  constructor
  · rintro ⟨before, d, later, hsplit, hsession, hattached⟩
    rcases concat_eq_append_cons_iff.mp hsplit with ⟨rfl, hlast, -⟩ | ⟨later, -, rfl⟩
    · exact .inr ⟨d, hlast.symm, hsession, hattached⟩
    · exact .inl ⟨before, d, later, rfl, hsession, hattached⟩
  · rintro (⟨before, d, later, rfl, hsession, hattached⟩ | ⟨d, rfl, hsession, hattached⟩)
    · exact ⟨before, d, later ++ [call], by simp, hsession, hattached⟩
    · exact ⟨calls, d, [], rfl, hsession, hattached⟩

theorem Attached.mem (h : Attached calls c) : .add c ∈ calls := by
  obtain ⟨before, later, rfl, -⟩ := h
  exact List.mem_append_right before List.mem_cons_self

theorem Replaced.mem (h : Replaced calls c) : .add c ∈ calls := by
  obtain ⟨before, d, later, rfl, -, hattached⟩ := h
  exact List.mem_append_left _ hattached.mem

def AddedOnce (calls : List Call) : Prop := (calls.filterMap Call.added?).Nodup

theorem AddedOnce.front (h : AddedOnce (calls ++ [call])) : AddedOnce calls := by
  unfold AddedOnce at h
  rw [List.filterMap_append] at h
  exact (List.nodup_append.mp h).1

theorem AddedOnce.not_mem (h : AddedOnce (calls ++ [.add c])) : .add c ∉ calls := by
  unfold AddedOnce at h
  rw [List.filterMap_append] at h
  intro hmem
  have hc : c ∈ calls.filterMap Call.added? := List.mem_filterMap.mpr ⟨.add c, hmem, rfl⟩
  exact (List.nodup_append.mp h).2.2 c hc c (by simp [Call.added?]) rfl

theorem not_attached_of_replaced (once : AddedOnce calls) (h : Replaced calls c) : ¬ Attached calls c := by
  induction calls using List.reverseRecOn with
  | nil => exact not_attached_nil c
  | append_singleton calls call ih =>
    rw [attached_concat_iff]
    rintro (rfl | ⟨hattached, hspares⟩)
    · rcases (replaced_concat_iff calls (.add c) c).mp h with hold | ⟨d, -, -, hattached⟩
      · exact once.not_mem hold.mem
      · exact once.not_mem hattached.mem
    · rcases (replaced_concat_iff calls call c).mp h with hold | ⟨d, hd, hsession, -⟩
      · exact ih once.front hold hattached
      · exact hspares.2.2 d hd hsession

end Histories

section Runs

theorem after_concat (calls : List Call) (call : Call) :
    after (calls ++ [call]) = (after calls).apply call := List.foldl_concat apply [] call calls

theorem displaced_append (r : Registry) (calls more : List Call) :
    displaced r (calls ++ more) = displaced r calls ++ displaced (calls.foldl apply r) more := by
  induction calls generalizing r with
  | nil => rfl
  | cons call calls ih =>
    rw [List.cons_append, displaced, displaced, ih, List.append_assoc]
    rfl

theorem displaced_concat (calls : List Call) (call : Call) :
    displaced [] (calls ++ [call]) = displaced [] calls ++ ((after calls).displaced? call).toList := by
  rw [displaced_append, displaced, displaced, List.append_nil]
  rfl

theorem client?_apply_iff (r : Registry) (call : Call) (c : Client) :
    (r.apply call).client? c.session = some c.id ↔
      call = .add c ∨ r.client? c.session = some c.id ∧ call.Spares c := by
  obtain ⟨session, id⟩ := c
  cases call with
  | clear => simp [apply, clear, client?, Call.Spares]
  | add d =>
    obtain ⟨session', id'⟩ := d
    rw [apply, client?_add]
    by_cases h : session = session'
    · subst h
      simp [Call.Spares, eq_comm]
    · simp [Call.Spares, h, Ne.symm h]
  | remove d =>
    obtain ⟨session', id'⟩ := d
    rw [apply]
    by_cases h : session = session'
    · subst h
      rw [client?_remove_self]
      simp [Call.Spares, eq_comm]
    · rw [client?_remove_of_ne h]
      simp [Call.Spares, Ne.symm h]

/-- The client of a session is the one that is attached to it. -/
theorem client?_after_iff (calls : List Call) (c : Client) :
    (after calls).client? c.session = some c.id ↔ Attached calls c := by
  induction calls using List.reverseRecOn with
  | nil => simp [after, client?, not_attached_nil]
  | append_singleton calls call ih =>
    rw [after_concat, client?_apply_iff, ih, attached_concat_iff]

theorem mem_displaced?_iff (calls : List Call) (call : Call) (c : Client) :
    c ∈ ((after calls).displaced? call).toList ↔
      ∃ d, call = .add d ∧ d.session = c.session ∧ Attached calls c := by
  obtain ⟨session, id⟩ := c
  rw [Option.mem_toList, ← client?_after_iff]
  cases call with
  | remove d | clear => simp [displaced?]
  | add d =>
    obtain ⟨session', id'⟩ := d
    simp only [displaced?, add, Option.map_eq_some_iff, Client.mk.injEq, Call.add.injEq, exists_eq_left']
    constructor
    · rintro ⟨n, hn, rfl, rfl⟩
      exact ⟨rfl, hn⟩
    · rintro ⟨rfl, hn⟩
      exact ⟨id, hn, rfl, rfl⟩

theorem mem_displaced_iff (calls : List Call) (c : Client) :
    c ∈ displaced [] calls ↔ Replaced calls c := by
  induction calls using List.reverseRecOn with
  | nil =>
    refine ⟨fun h => absurd h List.not_mem_nil, ?_⟩
    rintro ⟨before, d, later, h, -⟩
    simp at h
  | append_singleton calls call ih =>
    rw [displaced_concat, List.mem_append, ih, mem_displaced?_iff, replaced_concat_iff]

theorem nodup_displaced {calls : List Call} (once : AddedOnce calls) : (displaced [] calls).Nodup := by
  induction calls using List.reverseRecOn with
  | nil => exact List.nodup_nil
  | append_singleton calls call ih =>
    rw [displaced_concat]
    refine List.nodup_append.mpr ⟨ih once.front, ?_, ?_⟩
    · cases (after calls).displaced? call <;> simp
    · rintro c hc d hd rfl
      obtain ⟨e, -, -, hattached⟩ := (mem_displaced?_iff calls call c).mp hd
      exact not_attached_of_replaced once.front ((mem_displaced_iff calls c).mp hc) hattached

def Single (r : Registry) : Prop := (r.map Prod.fst).Nodup

theorem Single.filter {r : Registry} (h : r.Single) (p : String × Nat → Bool) : Single (r.filter p) :=
  h.sublist (List.filter_sublist.map Prod.fst)

theorem Single.apply {r : Registry} (h : r.Single) (call : Call) : (r.apply call).Single := by
  cases call with
  | clear => exact List.nodup_nil
  | add c =>
    refine List.nodup_cons.mpr ⟨fun hmem => ?_, h.filter _⟩
    obtain ⟨e, he, hsession⟩ := List.mem_map.mp hmem
    exact absurd hsession (by simpa using (List.mem_filter.mp he).2)
  | remove c =>
    rw [Registry.apply, remove]
    split
    · exact h.filter _
    · exact h

theorem single_after (calls : List Call) : (after calls).Single := by
  induction calls using List.reverseRecOn with
  | nil => exact List.nodup_nil
  | append_singleton calls call ih =>
    rw [after_concat]
    exact ih.apply call

theorem count_eq_ncard {r : Registry} (h : r.Single) :
    r.count = {session | (r.client? session).isSome = true}.ncard := by
  have hset : {session | (r.client? session).isSome = true} = ((r.map Prod.fst).toFinset : Set String) := by
    ext session
    rw [Set.mem_ofPred_eq, client?, lookup_isSome_iff_mem, Finset.mem_coe, List.mem_toFinset]
  rw [hset, Set.ncard_coe_finset, List.toFinset_card_of_nodup h, List.length_map, count]

/-- What holds of clients that come and go: a session has its newest client, a client whose place was taken
is given back once, and the sessions that have a client are counted. -/
structure KeepsNewest (calls : List Call) : Prop where
  newest : ∀ session n, (after calls).client? session = some n ↔ Attached calls ⟨session, n⟩
  given_back : ∀ c, Replaced calls c ↔ c ∈ displaced [] calls
  given_back_once : (displaced [] calls).Nodup
  counted : (after calls).count = {session | ∃ n, Attached calls ⟨session, n⟩}.ncard

theorem keepsNewest_of_addedOnce {calls : List Call} (once : AddedOnce calls) : KeepsNewest calls where
  newest session n := client?_after_iff calls ⟨session, n⟩
  given_back c := (mem_displaced_iff calls c).symm
  given_back_once := nodup_displaced once
  counted := by
    rw [count_eq_ncard (single_after calls)]
    congr 1
    ext session
    rw [Set.mem_ofPred_eq, Set.mem_ofPred_eq, Option.isSome_iff_exists]
    exact exists_congr fun n => client?_after_iff calls ⟨session, n⟩

/-- A client takes the place of another one, whose end comes late and twice, with a second session beside
them. -/
def reconnect : List Call :=
  [.add ⟨"S1", 0⟩, .add ⟨"S2", 1⟩, .add ⟨"S1", 2⟩, .remove ⟨"S1", 0⟩, .remove ⟨"S2", 1⟩, .remove ⟨"S1", 0⟩]

theorem keepsNewest_reconnect : AddedOnce reconnect ∧ KeepsNewest reconnect ∧
    after reconnect = [("S1", 2)] ∧ displaced [] reconnect = [⟨"S1", 0⟩] := by
  have once : AddedOnce reconnect := by
    unfold AddedOnce
    decide
  exact ⟨once, keepsNewest_of_addedOnce once, by decide, by decide⟩

end Runs

end Registry

end PocketBasic.Remote
