import Mathlib
import PocketBasic.Proofs.Session.Bookkeeping

/-!
# Connections counted in 32 bits

The open attachments of a session can be kept as a number of 32 bits that goes up and down, beside a mark
for each attachment that says if it has ended, so that it ends once. After the same calls both say of every
session which attachments are open. The number wraps around, and tells if a session is connected as long as
fewer than 2 ^ 31 attachments are open.
-/

namespace PocketBasic

structure Turnstile where
  connections : Int32 := 0
  /-- For every attachment, the first one first, if it has ended. -/
  ended : List Bool := []
deriving DecidableEq, Repr

namespace Turnstile

def attach (t : Turnstile) : Turnstile := ⟨t.connections + 1, t.ended ++ [false]⟩

def isOpen (t : Turnstile) (attachment : Nat) : Bool := t.ended[attachment]? = some false

def detach (t : Turnstile) (attachment : Nat) : Turnstile :=
  if t.isOpen attachment then ⟨t.connections - 1, t.ended.set attachment true⟩ else t

def isConnected (t : Turnstile) : Bool := 0 < t.connections

/-- What a call means for the session of an id. -/
def respond (id : String) (t : Turnstile) : SessionCall → Turnstile
  | .attach other => if other = id then t.attach else t
  | .detach other n => if other = id then t.detach n else t
  | .create .. | .get _ | .remove _ | .cleanUp | .touch _ => t

/-- What is counted for the session of an id after calls. -/
def after (id : String) : SessionCalls → Turnstile
  | [] => {}
  | (_, call) :: past => respond id (after id past) call

/-- The number is that of the attachments that have not ended. -/
def Balanced (t : Turnstile) : Prop := t.connections = Int32.ofNat (t.ended.count false)

variable {t : Turnstile} {past : SessionCalls} {s : Session} {id : String} {n m : Nat}

theorem Balanced.attach (h : t.Balanced) : t.attach.Balanced := by
  unfold Balanced Turnstile.attach
  rw [h, List.count_append, List.count_singleton_self, Int32.ofNat_add]
  rfl

theorem Balanced.detach (h : t.Balanced) (n : Nat) : (t.detach n).Balanced := by
  unfold Turnstile.detach
  split
  · next hopen =>
    obtain ⟨hn, hended⟩ := List.getElem?_eq_some_iff.mp (of_decide_eq_true hopen)
    have hpos : 1 ≤ t.ended.count false := List.count_pos_iff.mpr (hended ▸ List.getElem_mem hn)
    unfold Balanced
    rw [h, List.count_set hn, hended]
    exact (Int32.ofNat_sub _ 1 hpos).symm
  · exact h

theorem isOpen_attach : t.attach.isOpen n = true ↔ n = t.ended.length ∨ t.isOpen n = true := by
  unfold isOpen Turnstile.attach
  rw [decide_eq_true_iff, decide_eq_true_iff, List.getElem?_append]
  rcases Nat.lt_trichotomy n t.ended.length with hn | rfl | hn
  · simp [hn, hn.ne]
  · simp
  · have hnew : n - t.ended.length ≠ 0 := by omega
    simp [hn.not_gt, hn.ne', hnew]

theorem isOpen_detach : (t.detach n).isOpen m = true ↔ m ≠ n ∧ t.isOpen m = true := by
  unfold Turnstile.detach
  split
  · unfold isOpen
    rw [decide_eq_true_iff, decide_eq_true_iff, List.getElem?_set]
    by_cases hm : n = m
    · subst hm
      simp
    · simp [hm, Ne.symm hm]
  · next hended =>
    refine (and_iff_right_of_imp fun hopen hm => hended ?_).symm
    exact hm ▸ hopen

theorem length_detach (t : Turnstile) (n : Nat) : (t.detach n).ended.length = t.ended.length := by
  unfold Turnstile.detach
  split
  · exact List.length_set
  · rfl

structure Marks (past : SessionCalls) (id : String) (t : Turnstile) : Prop where
  balanced : t.Balanced
  length : t.ended.length = past.attaches id
  isOpen : ∀ n, t.isOpen n = true ↔ n < past.attaches id ∧ ¬ past.Detaches id n

theorem Marks.other {now : Int} {call : SessionCall} (h : Marks past id t) (hattach : call ≠ .attach id)
    (hdetach : ∀ n, call ≠ .detach id n) : Marks ((now, call) :: past) id t where
  balanced := h.balanced
  length := by rw [attaches_cons, if_neg hattach, h.length, Nat.add_zero]
  isOpen n := by
    rw [attaches_cons, if_neg hattach, Nat.add_zero, detaches_cons, or_iff_right (hdetach n)]
    exact h.isOpen n

theorem Marks.attach {now : Int} (h : Marks past id t) (hpast : past.Orderly) :
    Marks ((now, .attach id) :: past) id t.attach where
  balanced := h.balanced.attach
  length := by
    rw [attaches_cons, if_pos rfl, ← h.length]
    exact List.length_append
  isOpen n := by
    have hcall : SessionCall.attach id ≠ .detach id n := by simp
    have hnew : ¬ past.Detaches id (past.attaches id) := fun hdetaches =>
      absurd (lt_attaches_of_detaches hpast hdetaches) (lt_irrefl _)
    rw [isOpen_attach, h.isOpen, h.length, attaches_cons, if_pos rfl, detaches_cons, or_iff_right hcall]
    by_cases hn : n = past.attaches id
    · simp [hn, hnew]
    · simp only [hn, false_or]
      refine and_congr_left fun _ => ?_
      omega

theorem Marks.detach {now : Int} (h : Marks past id t) (n : Nat) :
    Marks ((now, .detach id n) :: past) id (t.detach n) where
  balanced := h.balanced.detach n
  length := by rw [length_detach, attaches_cons, if_neg (by simp), h.length, Nat.add_zero]
  isOpen m := by
    rw [isOpen_detach, h.isOpen, attaches_cons, if_neg (by simp), Nat.add_zero, detaches_cons, not_or,
      and_left_comm]
    simp [eq_comm]

theorem marks_after (hpast : past.Orderly) (id : String) : Marks past id (after id past) := by
  induction past with
  | nil => exact ⟨rfl, rfl, fun n => by simp [after, Turnstile.isOpen, SessionCalls.attaches]⟩
  | cons c past ih =>
    obtain ⟨now, call⟩ := c
    have hmarks := ih hpast.2
    cases call with
    | attach other =>
      rw [after, respond]
      split
      · next hid => exact hid ▸ hid ▸ hmarks.attach hpast.2
      · next hid => exact hmarks.other (fun heq => hid (SessionCall.attach.inj heq)) (by simp)
    | detach other n =>
      rw [after, respond]
      split
      · next hid => exact hid ▸ hid ▸ hmarks.detach n
      · next hid => exact hmarks.other (by simp) fun m heq => hid (SessionCall.detach.inj heq).1
    | create | get | remove | cleanUp | touch => exact hmarks.other (by simp) (by simp)

theorem Marks.ended_eq (h : Marks past id t) :
    t.ended = (List.range (past.attaches id)).map fun n => decide (past.Detaches id n) := by
  refine List.ext_getElem (by simp [h.length]) fun n hn hn' => ?_
  rw [List.length_map, List.length_range] at hn'
  have hopen := h.isOpen n
  unfold Turnstile.isOpen at hopen
  rw [List.getElem?_eq_getElem hn, decide_eq_true_iff, Option.some_inj, and_iff_right hn'] at hopen
  rw [List.getElem_map, List.getElem_range, Bool.eq_iff_iff, decide_eq_true_iff, ← not_iff_not,
    Bool.not_eq_true, hopen]

structure Counts (t : Turnstile) (s : Session) : Prop where
  connections : t.connections = Int32.ofNat s.attachments.length
  isOpen : ∀ n, t.isOpen n = true ↔ n ∈ s.attachments

theorem Marks.counts (h : Marks past s.id t) (hs : Tracks past s) : t.Counts s where
  connections := by
    rw [hs.length_eq, h.balanced, h.ended_eq, List.count, List.countP_map, SessionCalls.unreleased]
    congr 2
    funext n
    simp
  isOpen n := (h.isOpen n).trans (hs.isOpen n).symm

theorem Counts.isConnected_eq (h : t.Counts s) (hfew : s.attachments.length < 2 ^ 31) :
    t.isConnected = s.isConnected := by
  have hconnected : s.isConnected = true ↔ s.attachments.length ≠ 0 := by
    rw [Session.isConnected, Bool.not_eq_true', List.isEmpty_eq_false_iff, ne_eq, ne_eq,
      List.length_eq_zero_iff]
  rw [Bool.eq_iff_iff, hconnected, isConnected, h.connections, decide_eq_true_iff,
    Int32.lt_iff_toInt_lt, Int32.toInt_ofNat_of_lt hfew, Int32.toInt_zero]
  omega

/-- Whatever calls are made to an empty table, every session is counted as its attachments stand. -/
theorem counts_after {table : Sessions} (hempty : table.live = []) (hpast : past.Orderly)
    (hs : s ∈ (Holdings.after ⟨table, []⟩ past).all) : (after s.id past).Counts s :=
  (marks_after hpast s.id).counts ((Holdings.kept_after hempty hpast).tracked s hs)

end Turnstile

end PocketBasic
