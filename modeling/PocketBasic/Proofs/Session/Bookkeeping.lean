import Mathlib
import PocketBasic.Proofs.Session.Tracking

/-!
# The books of a session table

Whatever is called in whatever order, the table of sessions stays within its limit, and the calls tell of
each session how many connections it has and whether it is idle. A session that was removed may still be
held by its connections, which end their attachments later or never.
-/

namespace PocketBasic

/-- The live sessions, and those that were removed, which connections may still hold. -/
structure Holdings where
  table : Sessions
  removed : List Session := []

namespace Holdings

/-- Changes the session of an id, live or not. -/
def change (h : Holdings) (id : String) (f : Session → Session) : Holdings where
  table := h.table.update id f
  removed := h.removed.map fun s => if s.id = id then f s else s

def answer (h : Holdings) (now : Int) : SessionCall → Holdings
  | .create id address => match h.table.create id address now with
    | .ok (t, _) => { h with table := t }
    | .error _ => h
  | .get id => match h.table.get id now with
    | .ok (t, _) => { h with table := t }
    | .error _ => h
  | .remove id => ⟨(h.table.remove id).1, h.removed ++ h.table.live.filter (·.id = id)⟩
  | .cleanUp => ⟨(h.table.cleanUp now).1,
      h.removed ++ h.table.live.filter (·.isIdleSince (now - h.table.idleLimit))⟩
  | .touch id => h.change id (·.touch now)
  | .attach id => h.change id (·.attach now)
  | .detach id n => h.change id (·.detach n now)

def after (h : Holdings) : SessionCalls → Holdings
  | [] => h
  | (now, call) :: past => (h.after past).answer now call

end Holdings

/-- The sessions that are live or may still be held. -/
def Holdings.all (h : Holdings) : List Session := h.table.live ++ h.removed

namespace Sessions

variable {t : Sessions}

theorem create_of_full (h : t.isFull = true) (id address : String) (now : Int) :
    t.create id address now = .error (.tooMany t.limit) := if_pos h

def newSession (t : Sessions) (id address : String) (now : Int) : Session :=
  ⟨id, address, now, now, .new t.keys t.stepsPerTick t.dice, [], 0⟩

theorem create_of_free (h : t.isFull = false) (id address : String) (now : Int) :
    t.create id address now =
      .ok ({ t with live := t.live ++ [t.newSession id address now] }, t.newSession id address now) := by
  rw [create, h]
  rfl

theorem isFull_iff : t.isFull = true ↔ 0 < t.limit ∧ t.limit ≤ t.count := by
  simp [isFull]

end Sessions

namespace Holdings

open SessionCalls

variable {h : Holdings} {t : Sessions} {past : SessionCalls} {now : Int} {call : SessionCall}
  {s : Session}

/-- A table each of whose sessions has answered a call. -/
def Responds (h : Holdings) (now : Int) (call : SessionCall) (live : List Session) : Prop :=
  live.length ≤ h.table.live.length ∧ ∀ s' ∈ live, ∃ s ∈ h.table.live, s' = s.respond now call

theorem responds_filter (p : Session → Bool) (hsame : ∀ s, Session.respond now call s = s) :
    h.Responds now call (h.table.live.filter p) :=
  ⟨List.length_filter_le _ _, fun s hs => ⟨s, List.mem_of_mem_filter hs, (hsame s).symm⟩⟩

theorem responds_map (f : Session → Session) (hf : ∀ s ∈ h.table.live, f s = s.respond now call) :
    h.Responds now call (h.table.live.map f) := by
  refine ⟨(List.length_map _).le, fun s' hs' => ?_⟩
  obtain ⟨s, hs, rfl⟩ := List.mem_map.mp hs'
  exact ⟨s, hs, hf s hs⟩

/-- What a call does to the table: it adds a session, or the sessions that stay live answer it each by
itself. -/
theorem table_answer (h : Holdings) (now : Int) (call : SessionCall) :
    ∃ live, (h.answer now call).table = { h.table with live := live } ∧
      (h.Responds now call live ∨ ∃ id address, call = .create id address ∧ h.table.isFull = false ∧
        live = h.table.live ++ [h.table.newSession id address now]) := by
  cases call with
  | create id address =>
    cases hfull : h.table.isFull with
    | true =>
      refine ⟨h.table.live, ?_, .inl ⟨le_rfl, fun s hs => ⟨s, hs, rfl⟩⟩⟩
      rw [answer, Sessions.create_of_full hfull]
    | false =>
      refine ⟨_, ?_, .inr ⟨id, address, rfl, rfl, rfl⟩⟩
      rw [answer, Sessions.create_of_free hfull]
  | get id =>
    cases hfind : h.table.find? id with
    | none =>
      have hnone : ∀ s ∈ h.table.live, s.id ≠ id := by
        simpa using List.find?_eq_none.mp hfind
      refine ⟨h.table.live, ?_, .inl ⟨le_rfl, fun s hs => ⟨s, hs, (if_neg (hnone s hs)).symm⟩⟩⟩
      rw [answer, Sessions.get, hfind]
    | some s =>
      refine ⟨_, ?_, .inl (responds_map (fun s => if s.id = id then s.touch now else s) fun s hs => rfl)⟩
      rw [answer, Sessions.get, hfind]
      rfl
  | remove id => exact ⟨_, rfl, .inl (responds_filter _ fun s => rfl)⟩
  | cleanUp => exact ⟨_, rfl, .inl (responds_filter _ fun s => rfl)⟩
  | touch id => exact ⟨_, rfl, .inl (responds_map _ fun s hs => rfl)⟩
  | attach id => exact ⟨_, rfl, .inl (responds_map _ fun s hs => rfl)⟩
  | detach id n => exact ⟨_, rfl, .inl (responds_map _ fun s hs => rfl)⟩

/-- A removed session answers the calls on itself. Looking it up in vain is none. -/
theorem mem_removed_answer {s' : Session} (hs' : s' ∈ (h.answer now call).removed) :
    ∃ s ∈ h.all, s' = s.respond now call ∨ s' = s ∧ ∃ id, call = .get id := by
  cases call with
  | create id address =>
    refine ⟨s', List.mem_append_right _ ?_, .inl rfl⟩
    rw [answer] at hs'
    split at hs' <;> exact hs'
  | get id =>
    refine ⟨s', List.mem_append_right _ ?_, .inr ⟨rfl, id, rfl⟩⟩
    rw [answer] at hs'
    split at hs' <;> exact hs'
  | remove id =>
    refine ⟨s', ?_, .inl rfl⟩
    rcases List.mem_append.mp hs' with hs' | hs'
    · exact List.mem_append_right _ hs'
    · exact List.mem_append_left _ (List.mem_of_mem_filter hs')
  | cleanUp =>
    refine ⟨s', ?_, .inl rfl⟩
    rcases List.mem_append.mp hs' with hs' | hs'
    · exact List.mem_append_right _ hs'
    · exact List.mem_append_left _ (List.mem_of_mem_filter hs')
  | touch id =>
    obtain ⟨s, hs, rfl⟩ := List.mem_map.mp hs'
    exact ⟨s, List.mem_append_right _ hs, .inl rfl⟩
  | attach id =>
    obtain ⟨s, hs, rfl⟩ := List.mem_map.mp hs'
    exact ⟨s, List.mem_append_right _ hs, .inl rfl⟩
  | detach id n =>
    obtain ⟨s, hs, rfl⟩ := List.mem_map.mp hs'
    exact ⟨s, List.mem_append_right _ hs, .inl rfl⟩

/-- What calls keep: the rules of the table, its limit, and that the calls tell of every session. -/
structure Kept (t : Sessions) (past : SessionCalls) (h : Holdings) : Prop where
  limit : h.table.limit = t.limit
  idleLimit : h.table.idleLimit = t.idleLimit
  within : 0 < t.limit → h.table.count ≤ t.limit
  tracked : ∀ s ∈ h.all, Tracks past s
  active : ∀ s ∈ h.table.live, lastActivity? s.id past = some s.lastActivity

theorem kept_empty (hempty : t.live = []) : Kept t [] ⟨t, []⟩ where
  limit := rfl
  idleLimit := rfl
  within hpositive := by
    rw [Sessions.count, hempty]
    exact hpositive.le
  tracked s hs := by
    rw [all, hempty] at hs
    exact absurd hs List.not_mem_nil
  active s hs := by
    rw [hempty] at hs
    exact absurd hs List.not_mem_nil

theorem Kept.answer (hk : Kept t past h) (hpermits : past.Permits call) (hpast : past.Orderly)
    (now : Int) : Kept t ((now, call) :: past) (h.answer now call) := by
  have htracked : ∀ s ∈ h.all, Tracks ((now, call) :: past) (s.respond now call) := fun s hs =>
    (hk.tracked s hs).respond hpast now call
  have hremoved : ∀ s' ∈ (h.answer now call).removed, Tracks ((now, call) :: past) s' := fun s' hs' => by
    obtain ⟨s, hs, rfl | ⟨rfl, id, rfl⟩⟩ := mem_removed_answer hs'
    · exact htracked s hs
    · exact (hk.tracked s' hs).pass nofun nofun
  have hactive : ∀ s ∈ h.table.live,
      lastActivity? (s.respond now call).id ((now, call) :: past) =
        some (s.respond now call).lastActivity := fun s hs => by
    rw [Session.id_respond]
    exact (hk.tracked s (List.mem_append_left _ hs)).lastActivity?_respond hpermits (hk.active s hs) now
  obtain ⟨live, htable, hlive⟩ := table_answer h now call
  have hall : (h.answer now call).all = live ++ (h.answer now call).removed := by rw [all, htable]
  refine ⟨by rw [htable]; exact hk.limit, by rw [htable]; exact hk.idleLimit, fun hpositive => ?_, ?_, ?_⟩
  · have hwithin : (h.table.live.length : Int) ≤ t.limit := hk.within hpositive
    rw [htable]
    show (live.length : Int) ≤ t.limit
    rcases hlive with ⟨hlength, -⟩ | ⟨id, address, rfl, hfree, rfl⟩
    · omega
    · have hroom : ¬ (0 < t.limit ∧ t.limit ≤ h.table.live.length) := by
        rw [← hk.limit]
        exact fun hfull => Bool.false_ne_true (hfree.symm.trans (Sessions.isFull_iff.mpr hfull))
      rw [List.length_append, List.length_singleton]
      omega
  · rw [hall]
    intro s' hs'
    rcases List.mem_append.mp hs' with hmem | hmem
    · rcases hlive with ⟨-, hresponds⟩ | ⟨id, address, rfl, -, rfl⟩
      · obtain ⟨s, hs, rfl⟩ := hresponds s' hmem
        exact htracked s (List.mem_append_left _ hs)
      · rcases List.mem_append.mp hmem with hold | hnew
        · exact htracked s' (List.mem_append_left _ hold)
        · rw [List.mem_singleton.mp hnew]
          exact tracks_new (s := h.table.newSession id address now) hpast hpermits rfl rfl
    · exact hremoved s' hmem
  · rw [htable]
    intro s' hs'
    rcases hlive with ⟨-, hresponds⟩ | ⟨id, address, rfl, -, rfl⟩
    · obtain ⟨s, hs, rfl⟩ := hresponds s' hs'
      exact hactive s hs
    · rcases List.mem_append.mp hs' with hold | hnew
      · exact hactive s' hold
      · rw [List.mem_singleton.mp hnew]
        exact if_pos rfl

theorem kept_after (hempty : t.live = []) (hpast : past.Orderly) :
    Kept t past ((⟨t, []⟩ : Holdings).after past) := by
  induction past with
  | nil => exact kept_empty hempty
  | cons call past ih => exact (ih hpast.2).answer hpast.1 hpast.2 call.1

/-- What the calls on a table of sessions add up to. -/
structure Bookkept (t : Sessions) (past : SessionCalls) (h : Holdings) : Prop where
  within : 0 < t.limit → h.table.count ≤ t.limit
  creates : ∀ id address now,
    if 0 < t.limit ∧ (h.table.count : Int) = t.limit then
      h.table.create id address now = .error (.tooMany t.limit) ∧ h.answer now (.create id address) = h
    else ∃ s, s.id = id ∧
      h.table.create id address now = .ok ({ h.table with live := h.table.live ++ [s] }, s)
  connections : ∀ s ∈ h.all, s.attachments.length = past.unreleased s.id
  cleansUp : ∀ now, h.table.cleanUp now =
    ({ h.table with live := h.table.live.filter fun s => ¬ past.IsIdle (now - t.idleLimit) s.id },
      (h.table.live.filter fun s => past.IsIdle (now - t.idleLimit) s.id).length)

end Holdings

/-- A table for two sessions that may be idle for sixty. -/
def smallTable : Sessions where
  limit := 2
  idleLimit := 60
  keys := .builtin
  stepsPerTick := 1
  dice := ⟨fun _ => 0, 0⟩

/-- A session that is attached to twice and left once, beside one that is never looked at, and a third that
is refused. The table is cleaned up before the session is left for the second time. -/
def visits : SessionCalls :=
  [(170, .detach "A" 1), (160, .cleanUp), (155, .detach "A" 0), (150, .detach "A" 0), (100, .attach "A"),
    (95, .create "C" "10.0.0.3"), (90, .attach "A"), (60, .create "B" "10.0.0.2"),
    (0, .create "A" "10.0.0.1")]

end PocketBasic
