import Mathlib
import PocketBasic.Proofs.Remote.Attached
import PocketBasic.Proofs.Server.Receiving
import PocketBasic.Proofs.Session.Tracking
import PocketBasic.Server.Handle

/-!
# What belongs to a session

The seat of a session is all that a server holds of it: the session itself, its client, and the connections
to it. A connection that is opened or closed changes the seat of one session, as long as the registry of
clients agrees with the connections.
-/

namespace PocketBasic

namespace Sessions

variable {t : Sessions} {s : Session} {id other : String}

theorem id_of_find? (h : t.find? id = some s) : s.id = id := by
  simpa using List.find?_some h

theorem find?_update_of_ne {f : Session → Session} (hf : ∀ s, (f s).id = s.id) (hne : other ≠ id) :
    (t.update id f).find? other = t.find? other := by
  rw [find?_update hf]
  cases hfind : t.find? other with
  | none => rfl
  | some s =>
    have hid : ¬ s.id = id := fun h => hne ((id_of_find? hfind).symm.trans h)
    rw [Option.map_some, if_neg hid]

theorem find?_remove_of_ne (hne : other ≠ id) : (t.remove id).1.find? other = t.find? other := by
  unfold remove find?
  rw [List.find?_filter]
  refine List.find?_congr fun s _ => ?_
  by_cases hs : s.id = other
  · simp [hs, hne]
  · simp [hs]

theorem ids_update {f : Session → Session} (hf : ∀ s, (f s).id = s.id) (t : Sessions) (id : String) :
    (t.update id f).live.map (·.id) = t.live.map (·.id) := by
  unfold update
  rw [List.map_map]
  refine List.map_congr_left fun s _ => ?_
  simp only [Function.comp_apply]
  split
  · exact hf s
  · rfl

theorem ids_remove (t : Sessions) (id : String) :
    (t.remove id).1.live.map (·.id) = (t.live.map (·.id)).filter (· ≠ id) := by
  rw [List.filter_map]
  rfl

theorem create_eq_ok {t' : Sessions} {address : String} {now : Int}
    (h : t.create id address now = .ok (t', s)) :
    s.id = id ∧ t'.live.map (·.id) = t.live.map (·.id) ++ [id] ∧
      ∀ other, other ≠ id → t'.find? other = t.find? other := by
  unfold create at h
  split at h
  · cases h
  · cases h
    refine ⟨rfl, List.map_append, fun other hne => ?_⟩
    have hother : ¬ id = other := fun h => hne h.symm
    simp [find?, List.find?_append, hother]

theorem get_eq_ok {t' : Sessions} {now : Int} (h : t.get id now = .ok (t', s)) :
    s.id = id ∧ (t.find? id).isSome = true ∧ t' = t.update id (·.touch now) := by
  unfold get at h
  split at h
  · next found hfind =>
    cases h
    exact ⟨(id_of_find? hfind : found.id = id), by rw [hfind]; rfl, rfl⟩
  · cases h

end Sessions

namespace Server

/-- The connections that have been opened, each with its session. -/
def roster (v : Server) : List (Nat × String) := v.connections.map fun c => (c.client, c.session)

/-- The numbers of clients are not used again, and the client of a session is connected to no other. -/
structure Coherent (v : Server) : Prop where
  client_lt : ∀ id n, v.clients.client? id = some n → n < v.nextClient
  roster_lt : ∀ n session, (n, session) ∈ v.roster → n < v.nextClient
  own : ∀ id n session, v.clients.client? id = some n → (n, session) ∈ v.roster → session = id

def seat (v : Server) (id : String) : Option Session × Option Nat × List Connection :=
  (v.sessions.find? id, v.clients.client? id, v.connections.filter (·.session = id))

def ids (v : Server) : List String := v.sessions.live.map (·.id)

/-- No seat but that of one session has changed. -/
structure Confined (v w : Server) (id : String) : Prop where
  others : ∀ other, other ≠ id → w.seat other = v.seat other
  coherent : w.Coherent

variable {v w x : Server} {id other : String} {client : Nat}

theorem mem_roster {c : Connection} (hc : c ∈ v.connections) : (c.client, c.session) ∈ v.roster :=
  List.mem_map_of_mem hc

theorem coherent_of_empty (hclients : v.clients = []) (hconnections : v.connections = []) :
    v.Coherent where
  client_lt id n h := by
    rw [hclients] at h
    cases h
  roster_lt n session h := by
    rw [roster, hconnections] at h
    cases h
  own id n session h := by
    rw [hclients] at h
    cases h

theorem seat_eq (hsession : w.sessions.find? id = v.sessions.find? id)
    (hclient : w.clients.client? id = v.clients.client? id)
    (hconnections : w.connections.filter (·.session = id) = v.connections.filter (·.session = id)) :
    w.seat id = v.seat id := by
  unfold seat
  rw [hsession, hclient, hconnections]

theorem Confined.trans (h : Confined v w id) (h' : Confined w x id) : Confined v x id where
  others other hne := (h'.others other hne).trans (h.others other hne)
  coherent := h'.coherent

/-- No connection is opened, and no session gets another client. -/
structure KeepsRoster (v w : Server) : Prop where
  clients : ∀ id n, w.clients.client? id = some n → v.clients.client? id = some n
  roster : w.roster = v.roster
  next : w.nextClient = v.nextClient

theorem KeepsRoster.trans (h : KeepsRoster v w) (h' : KeepsRoster w x) : KeepsRoster v x where
  clients id n hclient := h.clients id n (h'.clients id n hclient)
  roster := h'.roster.trans h.roster
  next := h'.next.trans h.next

theorem keepsRoster_of_eq (hclients : w.clients = v.clients) (hconnections : w.connections = v.connections)
    (hnext : w.nextClient = v.nextClient) : KeepsRoster v w where
  clients id n h := by rwa [hclients] at h
  roster := by rw [roster, hconnections, roster]
  next := hnext

theorem KeepsRoster.coherent (h : KeepsRoster v w) (hv : v.Coherent) : w.Coherent where
  client_lt id n hclient := by
    rw [h.next]
    exact hv.client_lt id n (h.clients id n hclient)
  roster_lt n session hmem := by
    rw [h.next]
    exact hv.roster_lt n session (h.roster ▸ hmem)
  own id n session hclient hmem := hv.own id n session (h.clients id n hclient) (h.roster ▸ hmem)

theorem confined_of_sessions (hv : v.Coherent) (hclients : w.clients = v.clients)
    (hconnections : w.connections = v.connections) (hnext : w.nextClient = v.nextClient)
    (hsessions : ∀ other, other ≠ id → w.sessions.find? other = v.sessions.find? other) :
    Confined v w id where
  others other hne := seat_eq (hsessions other hne) (by rw [hclients]) (by rw [hconnections])
  coherent := (keepsRoster_of_eq hclients hconnections hnext).coherent hv

theorem find?_setCalculator_of_ne {session : String} (hne : other ≠ session) (v : Server)
    (k : Calculator) : (v.setCalculator session k).sessions.find? other = v.sessions.find? other :=
  Sessions.find?_update_of_ne (f := fun s => { s with calculator := k }) (fun _ => rfl) hne

theorem ids_setCalculator (v : Server) (session : String) (k : Calculator) :
    (v.setCalculator session k).ids = v.ids :=
  Sessions.ids_update (f := fun s => { s with calculator := k }) (fun _ => rfl) v.sessions session

/-! ### Closing a connection -/

section Closing

variable {f : Connection → Connection}

theorem roster_updateConnection (hf : ∀ c, (f c).client = c.client ∧ (f c).session = c.session)
    (v : Server) (client : Nat) : (v.updateConnection client f).roster = v.roster := by
  unfold roster updateConnection
  rw [List.map_map]
  refine List.map_congr_left fun c _ => ?_
  simp only [Function.comp_apply]
  split
  · rw [(hf c).1, (hf c).2]
  · rfl

theorem filter_updateConnection (hf : ∀ c, (f c).session = c.session)
    (hown : ∀ session, (client, session) ∈ v.roster → session ≠ other) :
    (v.updateConnection client f).connections.filter (·.session = other) =
      v.connections.filter (·.session = other) := by
  unfold updateConnection
  rw [List.filter_map]
  have hkeeps : ((fun c : Connection => decide (c.session = other)) ∘
      fun c => if c.client = client then f c else c) = fun c => decide (c.session = other) := by
    funext c
    simp only [Function.comp_apply]
    split
    · rw [hf]
    · rfl
  rw [hkeeps]
  refine (List.map_congr_left fun c hc => ?_).trans (List.map_id _)
  obtain ⟨hmem, hsession⟩ := List.mem_filter.mp hc
  have hclient : ¬ c.client = client := fun h =>
    hown c.session (h ▸ mem_roster hmem) (of_decide_eq_true hsession)
  exact if_neg hclient

theorem ids_closeConnection (v : Server) (client code : Nat) (now : Int) :
    (v.closeConnection client code now).ids = v.ids := by
  unfold closeConnection
  split
  · rfl
  · exact Sessions.ids_update (fun s => s.id_detach _ now) v.sessions _

theorem keepsRoster_closeConnection (v : Server) (client code : Nat) (now : Int) :
    KeepsRoster v (v.closeConnection client code now) := by
  have hroster := roster_updateConnection (f := fun c => { c with closed := some code })
    (fun _ => ⟨rfl, rfl⟩) v client
  unfold closeConnection
  split
  · exact keepsRoster_of_eq rfl rfl rfl
  · exact ⟨fun id n h => Remote.Registry.client?_of_remove h, hroster, rfl⟩

theorem confined_closeConnection (hv : v.Coherent)
    (hown : ∀ session, (client, session) ∈ v.roster → session = id) (code : Nat) (now : Int) :
    Confined v (v.closeConnection client code now) id := by
  refine ⟨fun other hne => ?_, (keepsRoster_closeConnection v client code now).coherent hv⟩
  unfold closeConnection
  cases hc : v.connection? client with
  | none => rfl
  | some c =>
    have hclient := client_of_connection? hc
    obtain rfl : c.session = id :=
      hown c.session (hclient ▸ mem_roster (List.mem_of_find?_eq_some hc))
    have hsession : (v.sessions.update c.session (·.detach c.attachment now)).find? other =
        v.sessions.find? other :=
      Sessions.find?_update_of_ne (fun s => s.id_detach _ now) hne
    have hregistry := Remote.Registry.client?_remove_of_ne hne v.clients client
    let closed := v.updateConnection client fun c => { c with closed := some code }
    have hconnections : closed.connections.filter (·.session = other) =
        v.connections.filter (·.session = other) :=
      filter_updateConnection (fun _ => rfl) fun session hmem => (hown session hmem).trans_ne hne.symm
    exact seat_eq hsession hregistry hconnections

end Closing

/-! ### Opening a connection -/

theorem ids_openConnection (v : Server) (s : Session) (address : String) (now : Int) :
    (v.openConnection s address now).1.ids = v.ids :=
  Sessions.ids_update (f := (·.attach now)) (fun _ => rfl) v.sessions s.id

theorem roster_openConnection (v : Server) (s : Session) (address : String) (now : Int) :
    (v.openConnection s address now).1.roster = v.roster ++ [(v.nextClient, s.id)] :=
  List.map_append

theorem confined_openConnection (hv : v.Coherent) (s : Session) (address : String) (now : Int) :
    Confined v (v.openConnection s address now).1 s.id := by
  have hroster := roster_openConnection v s address now
  have hclients : (v.openConnection s address now).1.clients = (v.clients.add s.id v.nextClient).1 := rfl
  have hnext : (v.openConnection s address now).1.nextClient = v.nextClient + 1 := rfl
  refine ⟨fun other hne => ?_, ?_⟩
  · refine seat_eq (Sessions.find?_update_of_ne (f := (·.attach now)) (fun _ => rfl) hne) ?_ ?_
    · rw [hclients, Remote.Registry.client?_add, if_neg hne]
    · have hother : ¬ s.id = other := fun h => hne h.symm
      simp [openConnection, List.filter_append, hother]
  · refine ⟨fun id n h => ?_, fun n session h => ?_, fun id n session h hmem => ?_⟩
    · rw [hclients, Remote.Registry.client?_add] at h
      rw [hnext]
      split at h
      · cases h
        exact Nat.lt_succ_self _
      · exact Nat.lt_succ_of_lt (hv.client_lt id n h)
    · rw [hroster, List.mem_append, List.mem_singleton, Prod.mk.injEq] at h
      rw [hnext]
      rcases h with h | ⟨rfl, -⟩
      · exact Nat.lt_succ_of_lt (hv.roster_lt n session h)
      · exact Nat.lt_succ_self _
    · rw [hclients, Remote.Registry.client?_add] at h
      rw [hroster, List.mem_append, List.mem_singleton, Prod.mk.injEq] at hmem
      split at h
      · next hid =>
        cases h
        rcases hmem with hmem | ⟨-, rfl⟩
        · exact absurd (hv.roster_lt _ session hmem) (Nat.lt_irrefl _)
        · exact hid.symm
      · rcases hmem with hmem | ⟨rfl, -⟩
        · exact hv.own id n session h hmem
        · exact absurd (hv.client_lt id _ h) (Nat.lt_irrefl _)

/-- The place of a connection can be taken by another one to the same session. -/
theorem confined_connect (hv : v.Coherent) (s : Session) (address : String) (now : Int) :
    Confined v (v.connect s address now).1 s.id ∧ (v.connect s address now).1.ids = v.ids ∧
      (v.connect s address now).1.roster = v.roster ++ [((v.connect s address now).2, s.id)] := by
  have hopen := confined_openConnection hv s address now
  have hids := ids_openConnection v s address now
  have hroster := roster_openConnection v s address now
  unfold connect
  cases hprevious : v.clients.client? s.id with
  | none =>
    have hnone : (v.openConnection s address now).2.2 = none := hprevious
    simp only [hnone]
    exact ⟨hopen, hids, hroster⟩
  | some old =>
    have hsome : (v.openConnection s address now).2.2 = some old := hprevious
    simp only [hsome]
    have hold : ∀ session, (old, session) ∈ (v.openConnection s address now).1.roster →
        session = s.id := by
      intro session hmem
      rw [hroster, List.mem_append, List.mem_singleton, Prod.mk.injEq] at hmem
      rcases hmem with hmem | ⟨-, rfl⟩
      · exact hv.own s.id old session hprevious hmem
      · rfl
    refine ⟨hopen.trans (confined_closeConnection hopen.coherent hold closedNormally now), ?_, ?_⟩
    · rw [ids_closeConnection, hids]
    · exact (keepsRoster_closeConnection _ old closedNormally now).roster.trans hroster

end Server

end PocketBasic
