import PocketBasic.Proofs.Server.Events
import PocketBasic.Text.Cluster

/-!
# Sessions are isolated by token

All that a request can do to the sessions and to their connections is listed by `Visit`. Without a valid
token it opens at most one new session, and with one it reaches the session of the token.
-/

namespace PocketBasic.Server

open Web (Request Response)

variable {v w : Server} {m : Moment} {r : Request} {id : String} {o : Outcome}

/-- The token of a request is valid, and it is one for the session. -/
def Names (v : Server) (m : Moment) (r : Request) (id : String) : Prop :=
  ∃ token claims, r.token = .ok token ∧ v.signer.validate m.second token = some claims ∧
    claims.sessionId = id

def Reaches (r : Request) (route : Route) : Prop :=
  pathOf r = r.target.path ∧ route? (pathOf r) = some route

/-- The sessions of a server, their clients and the connections to them. -/
def guests (v : Server) : Sessions × Remote.Registry × List Connection × Nat :=
  (v.sessions, v.clients, v.connections, v.nextClient)

/-- What a request does to the sessions and to their connections. -/
inductive Visit (v : Server) (m : Moment) (r : Request) : Server → Outcome → Prop
  | nothing {w : Server} {o : Outcome} (same : w.guests = v.guests) (answered : ∃ x, o = .respond x) :
      Visit v m r w o
  | created {w : Server} {x : Response} (route : Reaches r .session) (post : r.method = "POST")
      (confined : Confined v w m.newId) (roster : w.roster = v.roster)
      (ids : w.ids = v.ids ++ [m.newId]) : Visit v m r w (.respond x)
  | ended {w : Server} {x : Response} {id : String} (named : v.Names m r id)
      (confined : Confined v w id) (roster : w.roster = v.roster)
      (ids : w.ids = v.ids.filter (· ≠ id)) : Visit v m r w (.respond x)
  | sought {w : Server} {x : Response} {id : String} (named : v.Names m r id)
      (confined : Confined v w id) (roster : w.roster = v.roster) (ids : w.ids = v.ids) :
      Visit v m r w (.respond x)
  | connected {w : Server} {id : String} {client : Nat} (named : v.Names m r id)
      (live : (v.sessions.find? id).isSome = true) (confined : Confined v w id)
      (roster : w.roster = v.roster ++ [(client, id)]) (ids : w.ids = v.ids) :
      Visit v m r w (.connected client)

theorem names_of_authorize {claims : Access.Claims} (h : v.authorize m r = .ok claims) :
    v.Names m r claims.sessionId := by
  unfold authorize at h
  split at h
  · cases h
  · next token htoken =>
    split at h
    · next claims' hvalid =>
      cases h
      exact ⟨token, claims, htoken, hvalid, rfl⟩
    · cases h

theorem authorize_of_not_names (h : ∀ id, ¬ v.Names m r id) :
    ∃ message, v.authorize m r = .error (.failure 401 message) := by
  unfold authorize
  split
  · exact ⟨_, rfl⟩
  · next token htoken =>
    split
    · next claims hvalid => exact absurd ⟨token, claims, htoken, hvalid, rfl⟩ (h claims.sessionId)
    · exact ⟨_, rfl⟩

/-! ### Requests for sessions -/

theorem visit_createSession [Text.Typeface] (hv : v.Coherent) (hroute : Reaches r .session)
    (hpost : r.method = "POST") :
    Visit v m r (v.createSession m r).1 (.respond (v.createSession m r).2) := by
  unfold createSession
  simp only
  split
  · exact .nothing rfl ⟨_, rfl⟩
  · split
    · exact .nothing rfl ⟨_, rfl⟩
    · next sessions s hcreate =>
      obtain ⟨hid, hids, hothers⟩ := Sessions.create_eq_ok hcreate
      refine .created hroute hpost (confined_of_sessions hv rfl rfl rfl fun other hne => ?_) rfl
        ?_
      · exact (find?_setCalculator_of_ne (hid ▸ hne) _ _).trans (hothers other hne)
      · exact (ids_setCalculator _ _ _).trans hids

/-- The second half of the end of a session, once its connection has been closed. -/
theorem visit_remove {closed : Server} (hnamed : v.Names m r id) (hconfined : Confined v closed id)
    (hroster : closed.roster = v.roster) (hids : closed.ids = v.ids) {x y : Response} :
    let answer := match closed.sessions.remove id with
      | (sessions, true) => ({ closed with sessions := sessions }, x)
      | (_, false) => (closed, y)
    Visit v m r answer.1 (.respond answer.2) := by
  have hremoved : Confined v { closed with sessions := (closed.sessions.remove id).1 } id :=
    hconfined.trans (confined_of_sessions hconfined.coherent rfl rfl rfl fun _ hne =>
      Sessions.find?_remove_of_ne hne)
  have hids' := (Sessions.ids_remove closed.sessions id).trans (congrArg (List.filter _) hids)
  cases hremove : closed.sessions.remove id with
  | mk sessions live =>
    rw [hremove] at hremoved hids'
    cases live with
    | true => exact .ended hnamed hremoved hroster hids'
    | false => exact .sought hnamed hconfined hroster hids

theorem visit_endSession (hv : v.Coherent) {claims : Access.Claims}
    (hnamed : v.Names m r claims.sessionId) :
    Visit v m r (v.endSession m claims).1 (.respond (v.endSession m claims).2) := by
  unfold endSession
  cases hclient : v.clients.client? claims.sessionId with
  | none => exact visit_remove hnamed ⟨fun _ _ => rfl, hv⟩ rfl rfl
  | some client =>
    exact visit_remove hnamed
      (confined_closeConnection hv (fun session => hv.own _ client session hclient) _ _)
      (keepsRoster_closeConnection v client _ _).roster (ids_closeConnection v client _ _)

theorem visit_connectSession (hv : v.Coherent) {claims : Access.Claims}
    (hnamed : v.Names m r claims.sessionId) :
    Visit v m r (v.connectSession m r claims).1 (v.connectSession m r claims).2 := by
  unfold connectSession
  split
  · exact .nothing rfl ⟨_, rfl⟩
  · next sessions s hget =>
    obtain ⟨hid, hlive, rfl⟩ := Sessions.get_eq_ok hget
    have htouched : Confined v { v with
        sessions := v.sessions.update claims.sessionId (·.touch m.now) } claims.sessionId :=
      confined_of_sessions hv rfl rfl rfl fun _ hne => Sessions.find?_update_of_ne (fun _ => rfl) hne
    have hids := Sessions.ids_update (f := (·.touch m.now)) (fun _ => rfl) v.sessions claims.sessionId
    simp only
    split
    · exact .sought hnamed htouched rfl hids
    · obtain ⟨hconfined, hids', hroster⟩ := confined_connect htouched.coherent s r.clientAddress m.now
      rw [hid] at hconfined hroster
      exact .connected hnamed hlive (htouched.trans hconfined) hroster (hids'.trans hids)

theorem Visit.respond {x y : Response} (h : Visit v m r w (.respond x)) :
    Visit v m r w (.respond y) := by
  cases h with
  | nothing same _ => exact .nothing same ⟨y, rfl⟩
  | created route post confined roster ids => exact .created route post confined roster ids
  | ended named confined roster ids => exact .ended named confined roster ids
  | sought named confined roster ids => exact .sought named confined roster ids

theorem visit_handleSession [Text.Typeface] (hv : v.Coherent) (hroute : Reaches r .session) :
    Visit v m r (v.handleSession m r).1 (.respond (v.handleSession m r).2) := by
  unfold handleSession
  split
  · next hpost => exact visit_createSession hv hroute hpost
  · split
    · split
      · next claims hclaims => exact visit_endSession hv (names_of_authorize hclaims)
      · exact .nothing rfl ⟨_, rfl⟩
    · exact .nothing rfl ⟨_, rfl⟩

theorem visit_handleConnection (hv : v.Coherent) :
    Visit v m r (v.handleConnection m r).1 (v.handleConnection m r).2 := by
  unfold handleConnection
  split
  · exact .nothing rfl ⟨_, rfl⟩
  · split
    · next claims hclaims => exact visit_connectSession hv (names_of_authorize hclaims)
    · exact .nothing rfl ⟨_, rfl⟩

theorem visit_forSites {methods : String} {answer : Server × Response}
    (h : Visit v m r answer.1 (.respond answer.2)) :
    Visit v m r (forSites methods v r answer).1 (.respond (forSites methods v r answer).2) := by
  unfold forSites
  split
  · exact .nothing rfl ⟨_, rfl⟩
  · exact h.respond

theorem visit_handle [Text.Typeface] (hv : v.Coherent) (m : Moment) (r : Request) :
    Visit v m r (v.handle m r).1 (v.handle m r).2 := by
  unfold handle
  simp only
  split
  · exact .nothing rfl ⟨_, rfl⟩
  · next hpath =>
    split
    · next route hroute =>
      cases route with
      | programs => exact visit_forSites (.nothing rfl ⟨_, rfl⟩)
      | program name => exact visit_forSites (.nothing rfl ⟨_, rfl⟩)
      | session => exact visit_forSites (visit_handleSession hv ⟨not_not.mp hpath, hroute⟩)
      | connection => exact visit_handleConnection hv
    · exact .nothing rfl ⟨_, rfl⟩

/-! ### Visits -/

theorem Visit.coherent (h : Visit v m r w o) (hv : v.Coherent) : w.Coherent := by
  cases h with
  | nothing same _ =>
    simp only [guests, Prod.mk.injEq] at same
    obtain ⟨-, hclients, hconnections, hnext⟩ := same
    exact (keepsRoster_of_eq hclients hconnections hnext).coherent hv
  | created _ _ confined _ _ => exact confined.coherent
  | ended _ confined _ _ => exact confined.coherent
  | sought _ confined _ _ => exact confined.coherent
  | connected _ _ confined _ _ => exact confined.coherent

/-- A visit leaves the seats of all live sessions that its token does not name. -/
theorem Visit.others (h : Visit v m r w o) (hnew : v.sessions.find? m.newId = none)
    (hlive : (v.sessions.find? id).isSome = true) (hnot : ¬ v.Names m r id) : w.seat id = v.seat id := by
  have hother {named : String} (hnamed : v.Names m r named) : id ≠ named := by
    rintro rfl
    exact hnot hnamed
  cases h with
  | nothing same _ =>
    simp only [guests, Prod.mk.injEq] at same
    obtain ⟨hsessions, hclients, hconnections, -⟩ := same
    exact seat_eq (by rw [hsessions]) (by rw [hclients]) (by rw [hconnections])
  | created _ _ confined _ _ =>
    refine confined.others id fun hid => ?_
    rw [hid, hnew] at hlive
    cases hlive
  | ended named confined _ _ => exact confined.others id (hother named)
  | sought named confined _ _ => exact confined.others id (hother named)
  | connected named _ confined _ _ => exact confined.others id (hother named)

/-- A connection is opened only to a live session that the token names. -/
theorem Visit.roster (h : Visit v m r w o) :
    w.roster = v.roster ∨ ∃ id client, v.Names m r id ∧ (v.sessions.find? id).isSome = true ∧
      o = .connected client ∧ w.roster = v.roster ++ [(client, id)] := by
  cases h with
  | nothing same _ =>
    simp only [guests, Prod.mk.injEq] at same
    exact .inl (by rw [Server.roster, same.2.2.1, ← Server.roster])
  | created _ _ _ roster _ | ended _ _ roster _ | sought _ _ roster _ => exact .inl roster
  | connected named live _ roster _ => exact .inr ⟨_, _, named, live, rfl, roster⟩

/-- A session is added only by a request for one, and removed only if the token names it. -/
theorem Visit.ids (h : Visit v m r w o) :
    w.ids = v.ids ∨ (∃ id, v.Names m r id ∧ w.ids = v.ids.filter (· ≠ id)) ∨
      Reaches r .session ∧ r.method = "POST" ∧ w.ids = v.ids ++ [m.newId] := by
  cases h with
  | nothing same _ =>
    simp only [guests, Prod.mk.injEq] at same
    exact .inl (by rw [Server.ids, same.1, ← Server.ids])
  | created route post _ _ ids => exact .inr (.inr ⟨route, post, ids⟩)
  | ended named _ _ ids => exact .inr (.inl ⟨_, named, ids⟩)
  | sought _ _ _ ids | connected _ _ _ _ ids => exact .inl ids

theorem coherent_apply [Text.Typeface] (hv : v.Coherent) (e : Event) : (v.apply e).Coherent := by
  by_cases hrequest : ∃ m r, e = .request m r
  · obtain ⟨m, r, rfl⟩ := hrequest
    exact (visit_handle hv m r).coherent hv
  · exact (keepsRoster_apply (fun m r he => hrequest ⟨m, r, he⟩) v).coherent hv

theorem coherent_after [Text.Typeface] (hv : v.Coherent) (events : List Event) :
    (v.after events).Coherent := by
  induction events generalizing v with
  | nil => exact hv
  | cons e events ih => exact ih (coherent_apply hv e)

/-! ### Refusals -/

theorem handle_of_reaches [Text.Typeface] {route : Route} (h : Reaches r route) (v : Server) (m : Moment) :
    v.handle m r = v.handleRoute m r route := by
  obtain ⟨hpath, hroute⟩ := h
  simp only [handle, hroute, if_neg (not_not.mpr hpath)]

theorem handle_delete_of_not_names [Text.Typeface] (hreach : Reaches r .session)
    (hmethod : r.method = "DELETE") (hnone : ∀ id, ¬ v.Names m r id) :
    ∃ message, v.handle m r = (v, .respond (allowSites "POST, DELETE" (.failure 401 message))) := by
  obtain ⟨message, hrefused⟩ := authorize_of_not_names hnone
  refine ⟨message, ?_⟩
  rw [handle_of_reaches hreach]
  simp only [handleRoute, forSites, handleSession, hmethod, hrefused, if_true, String.reduceEq, if_false]

theorem handle_connection_of_not_names [Text.Typeface] (hreach : Reaches r .connection)
    (hnone : ∀ id, ¬ v.Names m r id) :
    ∃ message, v.handle m r = (v, .respond (.failure 401 message)) := by
  obtain ⟨message, hrefused⟩ := authorize_of_not_names hnone
  rw [handle_of_reaches hreach]
  simp only [handleRoute, handleConnection, hrefused]
  split
  · exact ⟨_, rfl⟩
  · exact ⟨_, rfl⟩

/-- Requests beforehand are not asked for a token, and are refused with or without one. -/
theorem handle_connection_of_options [Text.Typeface] (hreach : Reaches r .connection)
    (hmethod : r.method = "OPTIONS") :
    v.handle m r = (v, .respond (.failure 401 "unauthorized")) := by
  rw [handle_of_reaches hreach]
  simp only [handleRoute, handleConnection, hmethod, if_true]

/-- Sessions are isolated by token. After any requests and other events, a request leaves all that belongs
to a live session unless its token is valid and names that session, and only then can it connect to the
session. The live sessions stay, or lose the one that the token names, or gain one that was asked for.
Without a valid token no session is ended and no connection is opened, also not for a request that is not
asked for one. -/
theorem sessions_isolated [Text.Typeface] (hv : v.Coherent) (events : List Event) (m : Moment) (r : Request)
    (hnew : (v.after events).sessions.find? m.newId = none) :
    let u := v.after events
    let w := (u.handle m r).1
    (∀ id, (u.sessions.find? id).isSome = true → ¬ u.Names m r id → w.seat id = u.seat id) ∧
      (w.roster = u.roster ∨ ∃ id client, u.Names m r id ∧ (u.sessions.find? id).isSome = true ∧
        (u.handle m r).2 = .connected client ∧ w.roster = u.roster ++ [(client, id)]) ∧
      (w.ids = u.ids ∨ (∃ id, u.Names m r id ∧ w.ids = u.ids.filter (· ≠ id)) ∨
        Reaches r .session ∧ r.method = "POST" ∧ w.ids = u.ids ++ [m.newId]) ∧
      (Reaches r .session → r.method = "DELETE" → (∀ id, ¬ u.Names m r id) → ∃ message,
        u.handle m r = (u, .respond (allowSites "POST, DELETE" (.failure 401 message)))) ∧
      (Reaches r .connection → (∀ id, ¬ u.Names m r id) →
        ∃ message, u.handle m r = (u, .respond (.failure 401 message))) ∧
      (Reaches r .connection → r.method = "OPTIONS" →
        u.handle m r = (u, .respond (.failure 401 "unauthorized"))) := by
  intro u w
  have hvisit : Visit u m r w (u.handle m r).2 := visit_handle (coherent_after hv events) m r
  exact ⟨fun id hlive hnot => hvisit.others hnew hlive hnot, hvisit.roster, hvisit.ids,
    handle_delete_of_not_names, handle_connection_of_not_names, handle_connection_of_options⟩

def guest : Session := ⟨"A", "", 0, 0, .new .builtin 1 ⟨fun _ => 0, 0⟩, [], 0⟩

def awaitingGuest : Server :=
  { settings := {}
    signer := ⟨.standard, ""⟩
    admin := ⟨"", .standard⟩
    handshake := .standard
    store := {}
    sessions :=
      { live := [guest]
        limit := 0
        idleLimit := 0
        keys := .builtin
        stepsPerTick := 1
        dice := ⟨fun _ => 0, 0⟩ } }

def oneGuest : Server := (awaitingGuest.connect guest "" 0).1

theorem coherent_oneGuest : oneGuest.Coherent :=
  (confined_connect (coherent_of_empty rfl rfl) guest "" 0).1.coherent

def endWithoutToken : Request :=
  { method := "DELETE", target := { path := "/api/session".toList }, peer := "" }

/-- The guest stays. -/
theorem sessions_isolated_oneGuest :
    oneGuest.Coherent ∧ (oneGuest.after []).sessions.find? "B" = none ∧
      (∀ id, ¬ oneGuest.Names ⟨0, "B"⟩ endWithoutToken id) ∧
      (oneGuest.handle ⟨0, "B"⟩ endWithoutToken).1.seat "A" = oneGuest.seat "A" ∧
      ∃ message, oneGuest.handle ⟨0, "B"⟩ endWithoutToken =
        (oneGuest, .respond (allowSites "POST, DELETE" (.failure 401 message))) := by
  have hnew : (oneGuest.after []).sessions.find? "B" = none := by rfl
  have hnone : ∀ id, ¬ oneGuest.Names ⟨0, "B"⟩ endWithoutToken id := by
    rintro id ⟨token, claims, htoken, -⟩
    have hmissing : endWithoutToken.token = .error .missing := by rfl
    cases hmissing.symm.trans htoken
  have hreach : Reaches endWithoutToken .session := ⟨by decide, by cbv⟩
  obtain ⟨hseats, -, -, hends, -⟩ :=
    sessions_isolated coherent_oneGuest [] ⟨0, "B"⟩ endWithoutToken hnew
  exact ⟨coherent_oneGuest, hnew, hnone, hseats "A" rfl (hnone "A"), hends hreach rfl hnone⟩

end PocketBasic.Server
