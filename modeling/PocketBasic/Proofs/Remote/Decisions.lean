import Mathlib
import PocketBasic.Proofs.Remote.Window

/-!
# What a rate limit decides

Attempts of different kinds or from different addresses do not touch each other. Of those that count, under
one limit, an attempt and the one that comes a whole limit after it lie at least a window apart.
-/

namespace PocketBasic.Remote.RateLimit

variable {window : Int} {D before after : List (Attempt × Bool)} {d : Attempt × Bool} {a : Attempt}
  {attempts : List Attempt} {kind : Kind} {address : String} {calls : List Call}

theorem map_fst_judged (window : Int) (D : List (Attempt × Bool)) (attempts : List Attempt) :
    (judged window D attempts).map Prod.fst = attempts := by
  induction attempts generalizing D with
  | nil => rfl
  | cons a attempts ih => rw [judged, List.map_cons, ih]

theorem judged_eq_append_cons (h : judged window D attempts = before ++ d :: after) :
    d.2 = fits window (D ++ before) d.1 := by
  induction before generalizing D attempts with
  | nil =>
    cases attempts with
    | nil => cases h
    | cons a attempts =>
      cases h
      rw [List.append_nil]
  | cons d' before ih =>
    cases attempts with
    | nil => cases h
    | cons a attempts =>
      obtain ⟨hd', hrest⟩ := List.cons.inj h
      rw [ih hrest, hd', ← List.append_cons]

def about (kind : Kind) (address : String) (D : List (Attempt × Bool)) : List (Attempt × Bool) :=
  D.filter (·.1.concerns kind address)

theorem recorded_about (kind : Kind) (address : String) (D : List (Attempt × Bool)) :
    recorded kind address (about kind address D) = recorded kind address D := by
  unfold recorded about
  rw [List.filter_filter]
  congr 1
  refine List.filter_congr fun d _ => ?_
  unfold counts
  cases d.1.concerns kind address <;> simp

theorem fits_about (h : a.concerns kind address = true) (window : Int) (D : List (Attempt × Bool)) :
    fits window (about kind address D) a = fits window D a := by
  obtain ⟨rfl, rfl⟩ := concerns_iff.mp h
  rw [fits, recorded_about]
  rfl

/-- Attempts of one kind from one address are decided by each other alone. -/
theorem about_judged (kind : Kind) (address : String) (window : Int) (D : List (Attempt × Bool))
    (attempts : List Attempt) : about kind address (judged window D attempts) =
      judged window (about kind address D) (attempts.filter (·.concerns kind address)) := by
  induction attempts generalizing D with
  | nil => rfl
  | cons a attempts ih =>
    have hconcat : ∀ ok, about kind address (D ++ [(a, ok)]) =
        about kind address D ++ about kind address [(a, ok)] := fun ok => List.filter_append _ _
    have hcons : ∀ ok D', about kind address ((a, ok) :: D') =
        about kind address [(a, ok)] ++ about kind address D' := fun ok D' =>
      List.filter_append [(a, ok)] D'
    rw [judged, hcons, ih, hconcat]
    by_cases ha : a.concerns kind address = true
    · have hself : ∀ ok, about kind address [(a, ok)] = [(a, ok)] := fun ok =>
        List.filter_cons_of_pos ha
      rw [hself, List.filter_cons_of_pos ha, judged, fits_about ha]
      rfl
    · have hnone : ∀ ok, about kind address [(a, ok)] = [] := fun ok => List.filter_cons_of_neg ha
      rw [hnone, List.filter_cons_of_neg ha, List.append_nil]
      rfl

/-- The attempt that a recorded time belongs to, with those that were recorded before. -/
theorem exists_of_recorded {t : Int} {n : Nat} (h : (recorded kind address D)[n]? = some t) :
    ∃ before d after, D = before ++ d :: after ∧ counts kind address d = true ∧ d.1.now = t ∧
      recorded kind address before = (recorded kind address D).take n := by
  induction D generalizing n with
  | nil => cases h
  | cons d D ih =>
    have hcons : ∀ D', recorded kind address (d :: D') =
        (if counts kind address d then [d.1.now] else []) ++ recorded kind address D' := fun D' => by
      rw [← recorded_singleton, ← recorded_append, List.singleton_append]
    rw [hcons] at h ⊢
    by_cases hd : counts kind address d = true
    · rw [if_pos hd, List.singleton_append] at h ⊢
      cases n with
      | zero => exact ⟨[], d, D, rfl, hd, Option.some_inj.mp h, rfl⟩
      | succ n =>
        obtain ⟨before, d', after, rfl, hd', hnow, hbefore⟩ := ih h
        exact ⟨d :: before, d', after, rfl, hd', hnow, by
          rw [hcons, if_pos hd, hbefore, List.take_succ_cons, List.singleton_append]⟩
    · rw [if_neg hd, List.nil_append] at h ⊢
      obtain ⟨before, d', after, rfl, hd', hnow, hbefore⟩ := ih h
      exact ⟨d :: before, d', after, rfl, hd', hnow, by rw [hcons, if_neg hd, hbefore, List.nil_append]⟩

theorem map_now_attempts (calls : List Call) :
    (calls.filterMap Call.attempt?).map Attempt.now = (calls.filter (·.attempt?.isSome)).map Call.now := by
  induction calls with
  | nil => rfl
  | cons call calls ih =>
    cases call with
    | attempt a => exact congrArg (a.now :: ·) ih
    | prune now => exact ih

theorem mem_of_attempt? (h : a ∈ calls.filterMap Call.attempt?) : Call.attempt a ∈ calls := by
  obtain ⟨call, hcall, hattempt⟩ := List.mem_filterMap.mp h
  cases call with
  | attempt a' =>
    cases hattempt
    exact hcall
  | prune now => cases hattempt

theorem attempts_about (kind : Kind) (address : String) (calls : List Call) :
    (calls.filter (·.concerns kind address)).filterMap Call.attempt? =
      (calls.filterMap Call.attempt?).filter (·.concerns kind address) := by
  induction calls with
  | nil => rfl
  | cons call calls ih =>
    cases call with
    | attempt a =>
      have hattempts : (Call.attempt a :: calls).filterMap Call.attempt? =
          a :: calls.filterMap Call.attempt? := rfl
      by_cases ha : a.concerns kind address = true
      · have hcall : (Call.attempt a).concerns kind address = true := ha
        rw [hattempts, List.filter_cons_of_pos hcall, List.filter_cons_of_pos ha, ← ih]
        rfl
      · have hcall : ¬ (Call.attempt a).concerns kind address = true := ha
        rw [hattempts, List.filter_cons_of_neg hcall, List.filter_cons_of_neg ha, ih]
    | prune now => exact ih

theorem attempts_alone (calls : List Call) :
    (calls.filter (·.attempt?.isSome)).filterMap Call.attempt? = calls.filterMap Call.attempt? := by
  induction calls with
  | nil => rfl
  | cons call calls ih =>
    cases call with
    | attempt a => exact congrArg (a :: ·) ih
    | prune now => exact ih

theorem pairwise_recorded (hclock : (calls.map Call.now).Pairwise (· ≤ ·)) (window : Int) (kind : Kind)
    (address : String) :
    (recorded kind address (judged window [] (calls.filterMap Call.attempt?))).Pairwise (· ≤ ·) := by
  have hall : (judged window [] (calls.filterMap Call.attempt?)).map (·.1.now) =
      (calls.filter (·.attempt?.isSome)).map Call.now := by
    rw [← map_now_attempts, ← map_fst_judged window [] (calls.filterMap Call.attempt?), List.map_map,
      map_fst_judged]
    rfl
  have hsub : (recorded kind address (judged window [] (calls.filterMap Call.attempt?))).Sublist
      (calls.map Call.now) := by
    refine List.Sublist.trans (List.filter_sublist.map fun d : Attempt × Bool => d.1.now) ?_
    rw [hall]
    exact List.filter_sublist.map Call.now
  exact hclock.sublist hsub

theorem le_of_mem_drop {ts : List Int} {t : Int} {i : Nat} (hts : ts.Pairwise (· ≤ ·))
    (ht : ts[i]? = some t) : ∀ u ∈ ts.drop i, t ≤ u := by
  obtain ⟨hi, rfl⟩ := List.getElem?_eq_some_iff.mp ht
  have hdrop := hts.sublist (List.drop_sublist i ts)
  rw [List.drop_eq_getElem_cons hi] at hdrop ⊢
  intro u hu
  rcases List.mem_cons.mp hu with rfl | hu
  · exact le_rfl
  · exact (List.pairwise_cons.mp hdrop).1 u hu

/-- The times that count lie as far apart as the limit demands: a time and the one that comes a whole limit
after it do not fall into one window. -/
theorem window_le_sub {L : Nat} (hclock : (calls.map Call.now).Pairwise (· ≤ ·))
    (hlimit : ∀ a, Call.attempt a ∈ calls → a.concerns kind address → 0 < a.limit → a.limit = L)
    {i : Nat} {t t' : Int}
    (ht : (recorded kind address (judged window [] (calls.filterMap Call.attempt?)))[i]? = some t)
    (ht' : (recorded kind address (judged window [] (calls.filterMap Call.attempt?)))[i + L]? = some t') :
    window ≤ t' - t := by
  have hordered := pairwise_recorded hclock window kind address
  obtain ⟨before, ⟨a, ok⟩, after, hD, hcounts, rfl, hbefore⟩ := exists_of_recorded ht'
  obtain ⟨hok, hpositive, hconcerns⟩ : ok = true ∧ 0 < a.limit ∧ a.concerns kind address = true := by
    simpa [counts] using hcounts
  have hcall : Call.attempt a ∈ calls := by
    refine mem_of_attempt? ?_
    rw [← map_fst_judged window [] (calls.filterMap Call.attempt?), hD]
    simp
  have hL := hlimit a hcall hconcerns hpositive
  have hfew : (recent (recorded kind address before) (a.now - window)).length < L := by
    have hfits : ok = fits window before a := judged_eq_append_cons hD
    obtain ⟨rfl, rfl⟩ := concerns_iff.mp hconcerns
    rw [hok, fits, decide_eq_false (by omega), Bool.false_or, eq_comm, decide_eq_true_eq, hL] at hfits
    exact_mod_cast hfits
  -- Otherwise the times from the first one on, as many as the limit, are all in the window of the last.
  by_contra hnear
  generalize recorded kind address (judged window [] (calls.filterMap Call.attempt?)) = ts at *
  obtain ⟨hlast, -⟩ := List.getElem?_eq_some_iff.mp ht'
  have hwithin : recent ((ts.take (i + L)).drop i) (a.now - window) = (ts.take (i + L)).drop i := by
    refine List.filter_eq_self.mpr fun u hu => decide_eq_true ?_
    have hu' := le_of_mem_drop hordered ht u (((List.take_sublist (i + L) ts).drop i).subset hu)
    dsimp only at hnear
    omega
  have hmany : ((ts.take (i + L)).drop i).length ≤ (recent (ts.take (i + L)) (a.now - window)).length := by
    rw [← hwithin]
    exact ((List.drop_sublist i _).filter _).length_le
  rw [List.length_drop, List.length_take, Nat.min_eq_left hlast.le, ← hbefore] at hmany
  omega

/-- What holds of a limit with a window: attempts are decided by the times that count and fall into the
window, each kind and address for itself. -/
structure SlidingWindow (window : Int) (calls : List Call) : Prop where
  decided : ∀ before a ok after, decisions window [] calls = before ++ (a, ok) :: after → 0 < a.limit →
    (ok = true ↔
      (((recorded a.kind a.address before).filter (a.now - window < ·)).length : Int) < a.limit)
  unlimited : ∀ r a, a.limit ≤ 0 → ask window r a = (r, true)
  apart : ∀ kind address, (decisions window [] calls).filter (·.1.concerns kind address) =
    decisions window [] (calls.filter (·.concerns kind address))
  unpruned : decisions window [] (calls.filter (·.attempt?.isSome)) = decisions window [] calls
  spaced : ∀ kind address (L : Nat),
    (∀ a, Call.attempt a ∈ calls → a.concerns kind address → 0 < a.limit → a.limit = L) →
    ∀ i t t', (recorded kind address (decisions window [] calls))[i]? = some t →
      (recorded kind address (decisions window [] calls))[i + L]? = some t' → window ≤ t' - t

/-- With a clock that does not go back, a rate limit is a sliding window, whatever is forgotten when. -/
theorem slidingWindow_of_clock {window : Int} {calls : List Call}
    (hclock : (calls.map Call.now).Pairwise (· ≤ ·)) : SlidingWindow window calls where
  decided before a ok after hsplit hlimit := by
    rw [decisions_eq_judged hclock] at hsplit
    have hfits : ok = fits window before a := judged_eq_append_cons hsplit
    rw [hfits, fits, decide_eq_false (by omega), Bool.false_or, decide_eq_true_eq]
    rfl
  unlimited r a hlimit := ask_of_unlimited hlimit window r
  apart kind address := by
    have hclock' : ((calls.filter (·.concerns kind address)).map Call.now).Pairwise (· ≤ ·) :=
      hclock.sublist (List.filter_sublist.map Call.now)
    rw [decisions_eq_judged hclock, decisions_eq_judged hclock', attempts_about]
    exact about_judged kind address window [] (calls.filterMap Call.attempt?)
  unpruned := by
    have hclock' : ((calls.filter (·.attempt?.isSome)).map Call.now).Pairwise (· ≤ ·) :=
      hclock.sublist (List.filter_sublist.map Call.now)
    rw [decisions_eq_judged hclock, decisions_eq_judged hclock', attempts_alone]
  spaced kind address L hlimit i t t' ht ht' := by
    rw [decisions_eq_judged hclock] at ht ht'
    exact window_le_sub hclock hlimit ht ht'

/-- Attempts of one kind from one address under a limit of two in sixty seconds, of which the third is
refused, with another kind between them and a forgetting behind them. -/
def burst : List Call :=
  [.attempt ⟨.session, "10.0.0.1", 2, 0⟩, .attempt ⟨.load, "10.0.0.1", 2, 5⟩,
    .attempt ⟨.session, "10.0.0.1", 2, 10⟩, .attempt ⟨.session, "10.0.0.1", 2, 59⟩, .prune 65,
    .attempt ⟨.session, "10.0.0.1", 2, 65⟩, .attempt ⟨.session, "10.0.0.1", 0, 65⟩]

theorem slidingWindow_burst :
    (burst.map Call.now).Pairwise (· ≤ ·) ∧ SlidingWindow 60 burst ∧
      (decisions 60 [] burst).map Prod.snd = [true, true, true, false, true, true] := by
  have hclock : (burst.map Call.now).Pairwise (· ≤ ·) := by decide
  exact ⟨hclock, slidingWindow_of_clock hclock, by decide⟩

end PocketBasic.Remote.RateLimit
