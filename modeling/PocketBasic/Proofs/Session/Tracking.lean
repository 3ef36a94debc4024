import Mathlib
import PocketBasic.Session.Basic

/-!
# What the calls on a session add up to

The attachments of a session that are open are those whose end has not been called for, and its last
activity is the latest call that counts as one. Both can be told from the calls that were made, and one
more call changes the session as it changes them. Calls are listed with the latest one first.
-/

namespace PocketBasic

inductive SessionCall where
  | create (id address : String)
  | get (id : String)
  | remove (id : String)
  | cleanUp
  | touch (id : String)
  | attach (id : String)
  | detach (id : String) (attachment : Nat)
deriving DecidableEq, Repr

/-- The id that a call asks for a session under. -/
def SessionCall.newId? : SessionCall → Option String
  | .create id _ => some id
  | .get _ | .remove _ | .cleanUp | .touch _ | .attach _ | .detach _ _ => none

abbrev SessionCalls := List (Int × SessionCall)

namespace SessionCalls

def Creates (past : SessionCalls) (id : String) : Prop := some id ∈ past.map (·.2.newId?)

instance (past : SessionCalls) (id : String) : Decidable (past.Creates id) :=
  inferInstanceAs (Decidable (_ ∈ _))

def attaches (past : SessionCalls) (id : String) : Nat := past.countP (·.2 = .attach id)

def Detaches (past : SessionCalls) (id : String) (attachment : Nat) : Prop :=
  .detach id attachment ∈ past.map Prod.snd

instance (past : SessionCalls) (id : String) (attachment : Nat) :
    Decidable (past.Detaches id attachment) := inferInstanceAs (Decidable (_ ∈ _))

/-- How many attachments of a session have not been called to end. -/
def unreleased (past : SessionCalls) (id : String) : Nat :=
  (List.range (past.attaches id)).countP fun n => ¬ past.Detaches id n

/-- A call is an activity of a session. Of the calls to end an attachment only the first one is. -/
def IsActivity (past : SessionCalls) (id : String) : SessionCall → Prop
  | .create other _ | .get other | .touch other | .attach other => id = other
  | .detach other n => id = other ∧ ¬ past.Detaches id n
  | .remove _ | .cleanUp => False

instance (past : SessionCalls) (id : String) (call : SessionCall) :
    Decidable (past.IsActivity id call) := by
  cases call <;> unfold IsActivity <;> infer_instance

/-- The time of the last activity of a session. -/
def lastActivity? (id : String) : SessionCalls → Option Int
  | [] => none
  | (now, call) :: past => if IsActivity past id call then some now else lastActivity? id past

/-- A call that can be made after others: ids are new, one attaches to a session that was created, and
what is ended was begun. -/
def Permits (past : SessionCalls) : SessionCall → Prop
  | .create id _ => ¬ past.Creates id
  | .attach id => past.Creates id
  | .detach id n => n < past.attaches id
  | .get _ | .remove _ | .cleanUp | .touch _ => True

instance (past : SessionCalls) (call : SessionCall) : Decidable (past.Permits call) := by
  cases call <;> unfold Permits <;> infer_instance

def Orderly : SessionCalls → Prop
  | [] => True
  | call :: past => Permits past call.2 ∧ Orderly past

instance decidableOrderly : (past : SessionCalls) → Decidable past.Orderly
  | [] => inferInstanceAs (Decidable True)
  | call :: past =>
    have := decidableOrderly past
    inferInstanceAs (Decidable (Permits past call.2 ∧ Orderly past))

/-- A session is idle since before a time, as far as the calls tell. -/
def IsIdle (past : SessionCalls) (time : Int) (id : String) : Prop :=
  past.unreleased id = 0 ∧ (lastActivity? id past).any (· < time) = true

instance (past : SessionCalls) (time : Int) (id : String) : Decidable (past.IsIdle time id) :=
  inferInstanceAs (Decidable (_ ∧ _))

end SessionCalls

namespace Session

/-- What a call does to a session that is live. -/
def respond (now : Int) (call : SessionCall) (s : Session) : Session :=
  match call with
  | .get id | .touch id => if s.id = id then s.touch now else s
  | .attach id => if s.id = id then s.attach now else s
  | .detach id n => if s.id = id then s.detach n now else s
  | .create .. | .remove _ | .cleanUp => s

theorem attachments_detach (s : Session) (n : Nat) (now : Int) :
    (s.detach n now).attachments = s.attachments.filter (· ≠ n) := by
  unfold detach
  split
  · rfl
  · next hnot =>
    symm
    refine List.filter_eq_self.mpr fun m hm => decide_eq_true fun heq => hnot ?_
    rw [List.contains_eq_mem, ← heq]
    exact decide_eq_true hm

theorem id_detach (s : Session) (attachment : Nat) (now : Int) :
    (s.detach attachment now).id = s.id := by
  unfold detach
  split <;> rfl

theorem id_respond (now : Int) (call : SessionCall) (s : Session) : (s.respond now call).id = s.id := by
  cases call with
  | create id address => rfl
  | remove id => rfl
  | cleanUp => rfl
  | get id => exact (apply_ite Session.id _ _ _).trans (ite_self _)
  | touch id => exact (apply_ite Session.id _ _ _).trans (ite_self _)
  | attach id => exact (apply_ite Session.id _ _ _).trans (ite_self _)
  | detach id n =>
    rw [respond, apply_ite Session.id, id_detach, ite_self]

end Session

section Tracking

open SessionCalls

variable {past : SessionCalls} {id address : String} {now time : Int} {call : SessionCall} {n : Nat}
  {s s' : Session}

theorem attaches_cons (now : Int) (call : SessionCall) (past : SessionCalls) (id : String) :
    attaches ((now, call) :: past) id = past.attaches id + if call = .attach id then 1 else 0 := by
  rw [attaches, List.countP_cons]
  simp [attaches]

theorem detaches_cons : Detaches ((now, call) :: past) id n ↔ call = .detach id n ∨ past.Detaches id n := by
  rw [Detaches, List.map_cons, List.mem_cons, eq_comm]
  rfl

theorem creates_cons_of_creates (h : past.Creates id) : Creates ((now, call) :: past) id :=
  List.mem_cons_of_mem _ h

theorem attaches_eq_zero (h : Orderly past) (hnew : ¬ past.Creates id) : past.attaches id = 0 := by
  induction past with
  | nil => rfl
  | cons c past ih =>
    obtain ⟨hpermits, hpast⟩ := h
    have hnew' : ¬ Creates past id := fun hold => hnew (creates_cons_of_creates hold)
    have hother : c.2 ≠ .attach id := fun hattach => by
      rw [hattach] at hpermits
      exact hnew' hpermits
    rw [attaches_cons, ih hpast hnew', if_neg hother]

theorem lt_attaches_of_detaches (h : Orderly past) (hdetaches : past.Detaches id n) :
    n < past.attaches id := by
  induction past with
  | nil => exact absurd hdetaches List.not_mem_nil
  | cons c past ih =>
    obtain ⟨hpermits, hpast⟩ := h
    rw [attaches_cons]
    rcases detaches_cons.mp hdetaches with hdetach | hdetaches
    · rw [hdetach] at hpermits
      exact Nat.lt_add_right _ hpermits
    · exact Nat.lt_add_right _ (ih hpast hdetaches)

/-- The attachments of a session are as the calls tell. -/
structure Tracks (past : SessionCalls) (s : Session) : Prop where
  created : past.Creates s.id
  next : s.nextAttachment = past.attaches s.id
  distinct : s.attachments.Nodup
  isOpen : ∀ n, n ∈ s.attachments ↔ n < past.attaches s.id ∧ ¬ past.Detaches s.id n

theorem Tracks.length_eq (h : Tracks past s) : s.attachments.length = past.unreleased s.id := by
  have hperm : s.attachments.Perm
      ((List.range (past.attaches s.id)).filter fun n => ¬ past.Detaches s.id n) := by
    refine (List.perm_ext_iff_of_nodup h.distinct (List.nodup_range.filter _)).mpr fun n => ?_
    rw [h.isOpen, List.mem_filter, List.mem_range, decide_eq_true_iff]
  rw [hperm.length_eq, unreleased, List.countP_eq_length_filter]

theorem Tracks.other (h : Tracks past s) (hattach : call ≠ .attach s.id)
    (hdetach : ∀ n, call ≠ .detach s.id n) : Tracks ((now, call) :: past) s where
  created := creates_cons_of_creates h.created
  next := by rw [attaches_cons, if_neg hattach, h.next, Nat.add_zero]
  distinct := h.distinct
  isOpen n := by
    rw [attaches_cons, if_neg hattach, Nat.add_zero, detaches_cons, or_iff_right (hdetach n)]
    exact h.isOpen n

theorem Tracks.touch (h : Tracks past s) (now : Int) : Tracks past (s.touch now) :=
  ⟨h.created, h.next, h.distinct, h.isOpen⟩

theorem Tracks.attach (h : Tracks past s) (hpast : Orderly past) :
    Tracks ((now, .attach s.id) :: past) (s.attach now) where
  created := creates_cons_of_creates h.created
  next := by
    have hid : (s.attach now).id = s.id := rfl
    rw [hid, attaches_cons, if_pos rfl, ← h.next]
    rfl
  distinct := by
    refine List.nodup_cons.mpr ⟨fun hmem => ?_, h.distinct⟩
    have hlt := ((h.isOpen _).mp hmem).1
    rw [← h.next] at hlt
    exact absurd hlt (lt_irrefl _)
  isOpen n := by
    have hid : (s.attach now).id = s.id := rfl
    have hlist : (s.attach now).attachments = s.nextAttachment :: s.attachments := rfl
    have hnew : ¬ past.Detaches s.id (past.attaches s.id) := fun hdetaches =>
      absurd (lt_attaches_of_detaches hpast hdetaches) (lt_irrefl _)
    have hcall : SessionCall.attach s.id ≠ .detach s.id n := nofun
    rw [hid, hlist, List.mem_cons, h.isOpen, h.next, attaches_cons, if_pos rfl, detaches_cons,
      or_iff_right hcall]
    by_cases hn : n = past.attaches s.id
    · simp [hn, hnew]
    · simp only [hn, false_or]
      refine and_congr_left fun _ => ?_
      omega

theorem Tracks.detach (h : Tracks past s) (n : Nat) :
    Tracks ((now, .detach s.id n) :: past) (s.detach n now) := by
  have hid := s.id_detach n now
  have hnext : (s.detach n now).nextAttachment = s.nextAttachment := by
    unfold Session.detach
    split <;> rfl
  have hsame : attaches ((now, .detach s.id n) :: past) s.id = past.attaches s.id := by
    rw [attaches_cons, if_neg (by simp), Nat.add_zero]
  refine ⟨?_, ?_, ?_, fun m => ?_⟩
  · rw [hid]
    exact creates_cons_of_creates h.created
  · rw [hid, hnext, hsame, h.next]
  · rw [Session.attachments_detach]
    exact h.distinct.filter _
  · rw [hid, Session.attachments_detach, List.mem_filter, h.isOpen, hsame, detaches_cons, not_or,
      decide_eq_true_iff, and_assoc, and_congr_right_iff]
    intro _
    rw [and_comm]
    refine and_congr_left fun _ => ?_
    simp [eq_comm]

theorem tracks_new (hpast : Orderly past) (hnew : ¬ past.Creates s.id) (hopen : s.attachments = [])
    (hnext : s.nextAttachment = 0) : Tracks ((now, .create s.id address) :: past) s where
  created := List.mem_cons_self
  next := by rw [hnext, attaches_cons, attaches_eq_zero hpast hnew, if_neg (by simp)]
  distinct := by
    rw [hopen]
    exact List.nodup_nil
  isOpen n := by
    rw [hopen, attaches_cons, attaches_eq_zero hpast hnew, if_neg (by simp)]
    simp

theorem Tracks.pass (h : Tracks past s) (hattach : ∀ id, call ≠ .attach id)
    (hdetach : ∀ id n, call ≠ .detach id n) : Tracks ((now, call) :: past) s :=
  h.other (hattach s.id) (hdetach s.id)

theorem Tracks.respond (h : Tracks past s) (hpast : Orderly past) (now : Int) (call : SessionCall) :
    Tracks ((now, call) :: past) (s.respond now call) := by
  cases call with
  | create id address => exact h.pass nofun nofun
  | remove id => exact h.pass nofun nofun
  | cleanUp => exact h.pass nofun nofun
  | get id =>
    have hpass : Tracks ((now, .get id) :: past) s := h.pass nofun nofun
    rw [Session.respond]
    split
    · exact hpass.touch now
    · exact hpass
  | touch id =>
    have hpass : Tracks ((now, .touch id) :: past) s := h.pass nofun nofun
    rw [Session.respond]
    split
    · exact hpass.touch now
    · exact hpass
  | attach id =>
    rw [Session.respond]
    split
    · next hid =>
      subst hid
      exact h.attach hpast
    · next hid => exact h.other (fun heq => hid (SessionCall.attach.inj heq).symm) nofun
  | detach id n =>
    rw [Session.respond]
    split
    · next hid =>
      subst hid
      exact h.detach n
    · next hid => exact h.other nofun fun m heq => hid (SessionCall.detach.inj heq).1.symm

/-- An activity of a live session is noted with its time, and no other call is. -/
theorem Tracks.lastActivity_respond (h : Tracks past s) (hpermits : past.Permits call) (now : Int) :
    (s.respond now call).lastActivity =
      if past.IsActivity s.id call then now else s.lastActivity := by
  cases call with
  | create id address =>
    have hother : ¬ past.IsActivity s.id (.create id address) := fun hid => hpermits (hid ▸ h.created)
    rw [if_neg hother]
    rfl
  | remove id => exact (if_neg not_false).symm
  | cleanUp => exact (if_neg not_false).symm
  | get id => by_cases hid : s.id = id <;> simp [Session.respond, IsActivity, Session.touch, hid]
  | touch id => by_cases hid : s.id = id <;> simp [Session.respond, IsActivity, Session.touch, hid]
  | attach id =>
    by_cases hid : s.id = id <;> simp [Session.respond, IsActivity, Session.attach, hid]
  | detach id n =>
    by_cases hid : s.id = id
    · subst hid
      have hopen := h.isOpen n
      rw [and_iff_right (show n < past.attaches s.id from hpermits)] at hopen
      rw [Session.respond, if_pos rfl, Session.detach, List.contains_eq_mem]
      by_cases hn : n ∈ s.attachments
      · rw [if_pos (decide_eq_true hn), if_pos ⟨rfl, hopen.mp hn⟩]
      · rw [if_neg (by simpa using hn), if_neg fun hactive => hn (hopen.mpr hactive.2)]
    · rw [Session.respond, if_neg hid, if_neg fun hactive => hid hactive.1]

theorem Tracks.lastActivity?_respond (h : Tracks past s) (hpermits : past.Permits call)
    (hactive : lastActivity? s.id past = some s.lastActivity) (now : Int) :
    lastActivity? s.id ((now, call) :: past) = some (s.respond now call).lastActivity := by
  rw [lastActivity?, h.lastActivity_respond hpermits now, hactive]
  split <;> rfl

theorem isIdleSince_iff (h : Tracks past s) (hactive : lastActivity? s.id past = some s.lastActivity) :
    s.isIdleSince time = true ↔ past.IsIdle time s.id := by
  rw [Session.isIdleSince, Session.isConnected, Bool.not_not, Bool.and_eq_true, List.isEmpty_iff,
    decide_eq_true_iff, ← List.length_eq_zero_iff, h.length_eq, IsIdle, hactive]
  simp

end Tracking

end PocketBasic
