import Mathlib
import PocketBasic.Proofs.Entries
import PocketBasic.Remote.RateLimit

/-!
# The window of a rate limit

Whether an attempt is let through is decided as if the times of all attempts that counted were kept for
ever: those that fall into the window that ends now are compared with the limit. The times that have been
dropped by then make no difference. They have left the window, and as the clock does not go back they stay
outside of it. A key is forgotten for its last time alone, which is its latest one.
-/

namespace PocketBasic.Remote.RateLimit

inductive Kind where
  | session
  | load
deriving DecidableEq, Repr

def Kind.text : Kind → String
  | .session => "session"
  | .load => "load"

structure Attempt where
  kind : Kind
  address : String
  limit : Int
  now : Int
deriving DecidableEq, Repr

inductive Call where
  | attempt (a : Attempt)
  | prune (now : Int)
deriving DecidableEq, Repr

def Call.now : Call → Int
  | .attempt a => a.now
  | .prune now => now

def Call.attempt? : Call → Option Attempt
  | .attempt a => some a
  | .prune _ => none

def Attempt.concerns (kind : Kind) (address : String) (a : Attempt) : Bool :=
  a.kind = kind && a.address = address

/-- An attempt of a kind from an address. Forgetting keys is none. -/
def Call.concerns (kind : Kind) (address : String) (call : Call) : Bool :=
  call.attempt?.any (·.concerns kind address)

/-- What is remembered after an attempt, and whether it is let through. -/
def ask (window : Int) (r : RateLimit) (a : Attempt) : RateLimit × Bool :=
  r.allow a.kind.text a.address a.limit window a.now

/-- The attempts among calls, each with whether it is let through. -/
def decisions (window : Int) (r : RateLimit) : List Call → List (Attempt × Bool)
  | [] => []
  | .attempt a :: calls => (a, (ask window r a).2) :: decisions window (ask window r a).1 calls
  | .prune now :: calls => decisions window (r.prune window now) calls

/-- An attempt that counts: one that is let through under a limit. -/
def counts (kind : Kind) (address : String) (d : Attempt × Bool) : Bool :=
  d.2 && (0 < d.1.limit && d.1.concerns kind address)

/-- The times of the attempts of a kind from an address that count, in order. -/
def recorded (kind : Kind) (address : String) (D : List (Attempt × Bool)) : List Int :=
  (D.filter (counts kind address)).map (·.1.now)

/-- Whether an attempt is to be let through after what has been decided before. -/
def fits (window : Int) (D : List (Attempt × Bool)) (a : Attempt) : Bool :=
  a.limit ≤ 0 || (recent (recorded a.kind a.address D) (a.now - window)).length < a.limit

/-- Attempts that are decided one after another, each by all that has been decided before. -/
def judged (window : Int) (D : List (Attempt × Bool)) : List Attempt → List (Attempt × Bool)
  | [] => []
  | a :: attempts =>
    (a, fits window D a) :: judged window (D ++ [(a, fits window D a)]) attempts

section Memory

variable {r : RateLimit} {window now later cutoff : Int} {D : List (Attempt × Bool)} {a : Attempt}
  {kind : Kind} {address : String} {ts : List Int}

theorem concerns_iff : a.concerns kind address = true ↔ a.kind = kind ∧ a.address = address := by
  rw [Attempt.concerns, Bool.and_eq_true, decide_eq_true_eq, decide_eq_true_eq]

theorem key_inj {kind' : Kind} {address' : String} :
    key kind.text address = key kind'.text address' ↔ kind = kind' ∧ address = address' := by
  constructor
  · intro h
    have hchars := congrArg String.toList h
    simp only [key, String.toList_append] at hchars
    cases kind <;> cases kind' <;> simp_all [Kind.text, String.toList_inj]
  · rintro ⟨rfl, rfl⟩
    rfl

theorem recent_append (ts us : List Int) (cutoff : Int) :
    recent (ts ++ us) cutoff = recent ts cutoff ++ recent us cutoff := List.filter_append ts us

/-- What has left the window by some time is outside of it later. -/
theorem recent_recent {cutoff' : Int} (h : cutoff ≤ cutoff') (ts : List Int) :
    recent (recent ts cutoff) cutoff' = recent ts cutoff' := by
  unfold recent
  rw [List.filter_filter]
  refine List.filter_congr fun t _ => ?_
  rw [← Bool.decide_and, decide_eq_decide]
  omega

theorem recent_eq_nil_iff : recent ts cutoff = [] ↔ ∀ t ∈ ts, t ≤ cutoff := by
  simp [recent]

/-- Times in order that end at the latest with the present stay so when the present is added. -/
theorem recent_concat (hordered : ts.Pairwise (· ≤ ·)) (hpast : ∀ t ∈ ts, t ≤ now) (cutoff : Int)
    (ok : Bool) :
    (recent ts cutoff ++ if ok then [now] else []).Pairwise (· ≤ ·) ∧
      ∀ t ∈ recent ts cutoff ++ (if ok then [now] else []), t ≤ now := by
  have hkept : (recent ts cutoff).Pairwise (· ≤ ·) := hordered.sublist List.filter_sublist
  have hpast' : ∀ t ∈ recent ts cutoff, t ≤ now := fun t ht => hpast t (List.mem_of_mem_filter ht)
  cases ok with
  | false =>
    rw [if_neg Bool.false_ne_true, List.append_nil]
    exact ⟨hkept, hpast'⟩
  | true =>
    rw [if_pos rfl]
    refine ⟨List.pairwise_append.mpr ⟨hkept, List.pairwise_singleton _ _, fun t ht u hu => ?_⟩,
      fun t ht => ?_⟩
    · rw [List.mem_singleton.mp hu]
      exact hpast' t ht
    · rcases List.mem_append.mp ht with ht | ht
      · exact hpast' t ht
      · exact (List.mem_singleton.mp ht).le

theorem times_put (r : RateLimit) (k : String) (ts : List Int) (k' : String) :
    (r.put k ts).times k' = if k' = k then ts else r.times k' := by
  rw [times, put, lookup_replaced]
  split <;> rfl

theorem nodup_put (h : (r.map Prod.fst).Nodup) (k : String) (ts : List Int) :
    ((r.put k ts).map Prod.fst).Nodup := by
  rw [put, List.map_cons, List.nodup_cons]
  refine ⟨fun hmem => ?_, (List.filter_sublist.map Prod.fst).nodup h⟩
  obtain ⟨e, he, hkey⟩ := List.mem_map.mp hmem
  exact absurd hkey (by simpa using (List.mem_filter.mp he).2)

theorem times_prune (h : (r.map Prod.fst).Nodup) (window now : Int) (k : String) :
    (r.prune window now).times k =
      if (r.times k).getLast?.any (now - window < ·) then r.times k else [] := by
  rw [times, prune, lookup_filter h, times]
  cases r.lookup k with
  | none => rfl
  | some ts =>
    rw [Option.filter_some, Option.getD_some]
    split <;> rfl

theorem le_of_getLast? (h : ts.Pairwise (· ≤ ·)) (hlast : ¬ ts.getLast?.any (cutoff < ·) = true) :
    ∀ t ∈ ts, t ≤ cutoff := by
  rcases List.eq_nil_or_concat' ts with rfl | ⟨front, last, rfl⟩
  · exact fun t ht => absurd ht List.not_mem_nil
  · have hle : last ≤ cutoff := by
      simpa using hlast
    intro t ht
    rcases List.mem_append.mp ht with ht | ht
    · exact ((List.pairwise_append.mp h).2.2 t ht last (List.mem_singleton.mpr rfl)).trans hle
    · exact (List.mem_singleton.mp ht).trans_le hle

theorem recorded_append (kind : Kind) (address : String) (D E : List (Attempt × Bool)) :
    recorded kind address (D ++ E) = recorded kind address D ++ recorded kind address E := by
  rw [recorded, List.filter_append, List.map_append]
  rfl

theorem recorded_singleton (kind : Kind) (address : String) (d : Attempt × Bool) :
    recorded kind address [d] = if counts kind address d then [d.1.now] else [] := by
  unfold recorded
  by_cases hd : counts kind address d = true
  · rw [if_pos hd, List.filter_cons_of_pos hd]
    rfl
  · rw [if_neg hd, List.filter_cons_of_neg hd]
    rfl

/-- From now on, what is remembered agrees in every window with the times that count. -/
structure Remembers (window : Int) (r : RateLimit) (D : List (Attempt × Bool)) (now : Int) : Prop where
  keys : (r.map Prod.fst).Nodup
  ordered : ∀ k, (r.times k).Pairwise (· ≤ ·)
  past : ∀ k, ∀ t ∈ r.times k, t ≤ now
  agrees : ∀ kind address later, now ≤ later →
    recent (r.times (key kind.text address)) (later - window) =
      recent (recorded kind address D) (later - window)

theorem remembers_empty (window now : Int) : Remembers window [] [] now where
  keys := List.nodup_nil
  ordered _ := List.Pairwise.nil
  past _ _ ht := absurd ht List.not_mem_nil
  agrees _ _ _ _ := rfl

theorem Remembers.still (h : Remembers window r D now) (hnow : now ≤ later) :
    Remembers window r D later where
  keys := h.keys
  ordered := h.ordered
  past k t ht := (h.past k t ht).trans hnow
  agrees kind address later' hlater := h.agrees kind address later' (hnow.trans hlater)

theorem Remembers.prune (h : Remembers window r D now) : Remembers window (r.prune window now) D now where
  keys := (List.filter_sublist.map Prod.fst).nodup h.keys
  ordered k := by
    rw [times_prune h.keys]
    split
    · exact h.ordered k
    · exact List.Pairwise.nil
  past k := by
    rw [times_prune h.keys]
    split
    · exact h.past k
    · exact fun t ht => absurd ht List.not_mem_nil
  agrees kind address later hlater := by
    rw [← h.agrees kind address later hlater, times_prune h.keys]
    split
    · rfl
    · next hquiet =>
      have hold := le_of_getLast? (h.ordered (key kind.text address)) hquiet
      symm
      refine recent_eq_nil_iff.mpr fun t ht => (hold t ht).trans ?_
      omega

theorem ask_of_unlimited (h : a.limit ≤ 0) (window : Int) (r : RateLimit) : ask window r a = (r, true) := by
  unfold ask allow
  rw [if_pos h]

/-- The times that are kept under the key of a limited attempt: those of the window, and its own if it is
let through. -/
theorem ask_of_limited (h : 0 < a.limit) (window : Int) (r : RateLimit) :
    let kept := recent (r.times (key a.kind.text a.address)) (a.now - window)
    let ok : Bool := kept.length < a.limit
    ask window r a =
      (r.put (key a.kind.text a.address) (kept ++ if ok then [a.now] else []), ok) := by
  unfold ask allow
  rw [if_neg (by omega)]
  dsimp only
  split
  · next hfull =>
    rw [decide_eq_false (by omega)]
    simp
  · next hfree =>
    rw [decide_eq_true (by omega)]
    simp

theorem Remembers.ask_eq (h : Remembers window r D now) (hnow : now ≤ a.now) :
    (ask window r a).2 = fits window D a := by
  unfold fits
  by_cases hlimit : a.limit ≤ 0
  · rw [ask_of_unlimited hlimit, decide_eq_true hlimit]
    rfl
  · rw [ask_of_limited (by omega), h.agrees a.kind a.address a.now hnow, decide_eq_false hlimit]
    rfl

theorem counts_of_unlimited (h : a.limit ≤ 0) (kind : Kind) (address : String) (ok : Bool) :
    counts kind address (a, ok) = false := by
  have hlimit : decide (0 < a.limit) = false := decide_eq_false (by omega)
  simp [counts, hlimit]

theorem counts_of_limited (h : 0 < a.limit) (ok : Bool) :
    counts kind address (a, ok) = (ok && a.concerns kind address) := by
  simp [counts, h]

/-- An attempt adds its own time to what is remembered if it counts. -/
theorem Remembers.ask (h : Remembers window r D now) (hnow : now ≤ a.now) :
    Remembers window (ask window r a).1 (D ++ [(a, (RateLimit.ask window r a).2)]) a.now := by
  by_cases hlimit : a.limit ≤ 0
  · rw [ask_of_unlimited hlimit]
    refine { h.still hnow with agrees := fun kind address later hlater => ?_ }
    rw [recorded_append, recorded_singleton, counts_of_unlimited hlimit, if_neg Bool.false_ne_true,
      List.append_nil]
    exact h.agrees kind address later (hnow.trans hlater)
  · have hpositive : 0 < a.limit := by omega
    rw [ask_of_limited hpositive]
    dsimp only
    generalize decide (((recent (r.times (key a.kind.text a.address)) (a.now - window)).length : Int) <
      a.limit) = ok
    have hpast : ∀ k, ∀ t ∈ r.times k, t ≤ a.now := fun k t ht => (h.past k t ht).trans hnow
    obtain ⟨hordered', hpast'⟩ := recent_concat (h.ordered _) (hpast (key a.kind.text a.address))
      (a.now - window) ok
    refine ⟨nodup_put h.keys _ _, fun k => ?_, fun k => ?_, fun kind address later hlater => ?_⟩
    · rw [times_put]
      split
      · exact hordered'
      · exact h.ordered k
    · rw [times_put]
      split
      · exact hpast'
      · exact hpast k
    · have hagrees := h.agrees kind address later (hnow.trans hlater)
      rw [times_put, recorded_append, recorded_singleton, counts_of_limited hpositive, recent_append,
        ← hagrees]
      by_cases hkey : key kind.text address = key a.kind.text a.address
      · obtain ⟨rfl, rfl⟩ := key_inj.mp hkey
        rw [if_pos rfl, recent_append, recent_recent (by omega)]
        simp [Attempt.concerns]
      · have hother : a.concerns kind address = false := Bool.eq_false_iff.mpr fun hsame => by
          obtain ⟨hkind, haddress⟩ := concerns_iff.mp hsame
          exact hkey (key_inj.mpr ⟨hkind.symm, haddress.symm⟩)
        rw [if_neg hkey, hother, Bool.and_false, if_neg Bool.false_ne_true]
        exact (List.append_nil _).symm

/-- With a clock that does not go back, attempts are decided as if nothing were ever forgotten. -/
theorem Remembers.decisions_eq (h : Remembers window r D now) {calls : List Call}
    (hclock : (now :: calls.map Call.now).Pairwise (· ≤ ·)) :
    decisions window r calls = judged window D (calls.filterMap Call.attempt?) := by
  induction calls generalizing r D now with
  | nil => rfl
  | cons call calls ih =>
    obtain ⟨hnow, hrest⟩ := List.pairwise_cons.mp hclock
    have hcall : now ≤ call.now := hnow _ List.mem_cons_self
    cases call with
    | attempt a =>
      have hattempts : (Call.attempt a :: calls).filterMap Call.attempt? =
          a :: calls.filterMap Call.attempt? := rfl
      rw [hattempts, judged, ← h.ask_eq hcall]
      exact congrArg _ (ih (h.ask hcall) hrest)
    | prune now' =>
      exact ih (h.still hcall).prune hrest

theorem decisions_eq_judged {calls : List Call} (hclock : (calls.map Call.now).Pairwise (· ≤ ·)) :
    decisions window [] calls = judged window [] (calls.filterMap Call.attempt?) := by
  cases calls with
  | nil => rfl
  | cons call calls =>
    refine (remembers_empty window call.now).decisions_eq (List.pairwise_cons.mpr ⟨?_, hclock⟩)
    intro t ht
    rcases List.mem_cons.mp ht with rfl | ht
    · exact le_rfl
    · exact (List.pairwise_cons.mp hclock).1 t ht

end Memory

end PocketBasic.Remote.RateLimit
