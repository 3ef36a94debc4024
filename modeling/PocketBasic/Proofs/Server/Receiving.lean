import Mathlib
import PocketBasic.Access.HashedPassword
import PocketBasic.Access.SignedToken
import PocketBasic.Proofs.Remote.Answering
import PocketBasic.Text.Cluster

/-!
# A server that receives a message

The reply to a message waits in the queue of the connection that it came over, and the calculator of its
session is the only one that it reaches.
-/

namespace PocketBasic

/-- A change that keeps the identity of sessions finds its way to the session of an id. -/
theorem Sessions.find?_update {f : Session → Session} (hf : ∀ s, (f s).id = s.id) (t : Sessions)
    (id other : String) :
    (t.update id f).find? other = (t.find? other).map fun s => if s.id = id then f s else s := by
  unfold Sessions.update Sessions.find?
  rw [List.find?_map]
  congr 2
  funext s
  simp only [Function.comp_apply]
  split
  · rw [hf]
  · rfl

theorem Remote.Outbox.push_of_room {o : Remote.Outbox} (h : o.hasRoom = true) (m : Remote.Message) :
    o.push m = { o with queue := o.queue ++ [m] } := by
  rw [push, if_pos h]

namespace Server

variable {v : Server} {client other : Nat} {session : String} {c : Connection} {k : Calculator}

theorem client_of_connection? (h : v.connection? client = some c) : c.client = client := by
  have hfound := List.find?_some h
  simp only [Bool.and_eq_true, decide_eq_true_eq] at hfound
  exact hfound.1

theorem connection?_updateConnection {f : Connection → Connection}
    (hf : ∀ c, (f c).client = c.client ∧ (f c).closed = c.closed) (v : Server) (client other : Nat) :
    (v.updateConnection client f).connection? other =
      (v.connection? other).map fun c => if c.client = client then f c else c := by
  unfold updateConnection connection?
  rw [List.find?_map]
  congr 2
  funext c
  simp only [Function.comp_apply]
  split
  · rw [(hf c).1, (hf c).2]
  · rfl

/-- The calculator of a session after a change of the session of an id. -/
theorem calculator?_update {f : Session → Session} (hid : ∀ s, (f s).id = s.id) {w : Server} {id : String}
    (hw : w.sessions = v.sessions.update id f) (session : String) :
    w.calculator? session =
      (v.sessions.find? session).map fun s => (if session = id then f s else s).calculator := by
  unfold calculator?
  rw [hw, Sessions.find?_update hid]
  cases hfind : v.sessions.find? session with
  | none => rfl
  | some s =>
    have hs : s.id = session := by simpa using List.find?_some hfind
    simp only [Option.map_some, hs]

theorem calculator?_setCalculator (v : Server) (session other : String) (k : Calculator) :
    (v.setCalculator session k).calculator? other =
      if other = session then (v.calculator? other).map fun _ => k else v.calculator? other := by
  rw [calculator?_update (f := fun s => { s with calculator := k }) (fun _ => rfl) rfl]
  unfold calculator?
  split
  · rw [Option.map_map]
    rfl
  · rfl

/-- Activity of a session is not seen in its calculator, nor are attachments. -/
theorem calculator?_of_kept {f : Session → Session} (hid : ∀ s, (f s).id = s.id)
    (hkept : ∀ s, (f s).calculator = s.calculator) {w : Server} {id : String}
    (hw : w.sessions = v.sessions.update id f) (session : String) :
    w.calculator? session = v.calculator? session := by
  rw [calculator?_update hid hw]
  unfold calculator?
  congr 1
  funext s
  split
  · exact hkept s
  · rfl

theorem receive_tooBig [Text.Typeface] {text : String} (hc : v.connection? client = some c)
    (hbig : v.isTooBig text = true) (now : Int) :
    (v.receive client text now).connection? client = none ∧
      (v.receive client text now).connections.map (·.outbox) = v.connections.map (·.outbox) ∧
      ∀ session, (v.receive client text now).calculator? session = v.calculator? session := by
  unfold receive
  rw [hc]
  simp only [hbig, if_true]
  unfold closeConnection
  rw [hc]
  refine ⟨?_, ?_, fun session => ?_⟩
  · refine List.find?_eq_none.mpr fun c' hc' => ?_
    obtain ⟨c'', -, rfl⟩ := List.mem_map.mp hc'
    by_cases hclient : c''.client = client <;> simp [hclient]
  · simp only [updateConnection, List.map_map, Function.comp_def]
    refine List.map_congr_left fun c' _ => ?_
    split <;> rfl
  · refine calculator?_of_kept (fun s => ?_) (fun s => ?_) rfl session
    · unfold Session.detach
      split <;> rfl
    · unfold Session.detach
      split <;> rfl

/-- Before the reply is queued, the calculator is set, and the activity of the session is noted. -/
theorem receive_eq [Text.Typeface] {text : String} {now : Int} {h : Remote.Handled}
    (hc : v.connection? client = some c)
    (hk : v.calculator? c.session = some k) (hread : v.isTooBig text = false)
    (hh : Remote.receive (v.circumstances c now) k v.limits text = h) :
    ∃ w : Server, w.connections = v.connections ∧
      (∀ session, w.calculator? session =
        if session = c.session then some h.calculator else v.calculator? session) ∧
      v.receive client text now = match h.reply with
        | some m => w.updateConnection client fun c => { c with outbox := c.outbox.push m }
        | none => w := by
  let set : Server := { v.setCalculator c.session h.calculator with limits := h.limits }
  have hset : ∀ session, set.calculator? session =
      if session = c.session then some h.calculator else v.calculator? session := by
    intro session
    refine (calculator?_setCalculator v c.session session h.calculator).trans ?_
    by_cases hsession : session = c.session
    · rw [if_pos hsession, if_pos hsession, hsession, hk, Option.map_some]
    · rw [if_neg hsession, if_neg hsession]
  refine ⟨if h.inOrder then { set with sessions := set.sessions.update c.session (·.touch now) } else set,
    ?_, fun session => ?_, ?_⟩
  · split <;> rfl
  · rw [← hset session]
    split
    · exact calculator?_of_kept (f := (·.touch now)) (fun _ => rfl) (fun _ => rfl) rfl session
    · rfl
  · unfold receive
    rw [hc]
    simp only [hread, Bool.false_eq_true, if_false, hk, hh]
    rfl

/-- A text that is read has its reply queued on its own connection, and sets the calculator of its own
session. -/
theorem receive_read [Text.Typeface] {text : String} {now : Int} {h : Remote.Handled} {w : Server}
    (hc : v.connection? client = some c) (hk : v.calculator? c.session = some k)
    (hroom : c.outbox.hasRoom = true) (hread : v.isTooBig text = false)
    (hh : Remote.receive (v.circumstances c now) k v.limits text = h)
    (hw : v.receive client text now = w) :
    w.connection? client =
        some { c with outbox := { c.outbox with queue := c.outbox.queue ++ h.reply.toList } } ∧
      (∀ other, other ≠ client → w.connection? other = v.connection? other) ∧
      w.calculator? c.session = some h.calculator ∧
      ∀ session, session ≠ c.session → w.calculator? session = v.calculator? session := by
  obtain ⟨u, hconnections, hcalculator, hu⟩ := receive_eq hc hk hread hh
  have hconnection : ∀ other, u.connection? other = v.connection? other := fun other => by
    rw [connection?, hconnections, ← connection?]
  rw [hw] at hu
  cases hreply : h.reply with
  | none =>
    rw [hreply] at hu
    subst hu
    refine ⟨?_, fun other _ => hconnection other, ?_, fun session hsession => ?_⟩
    · rw [hconnection, hc, Option.toList_none, List.append_nil]
    · rw [hcalculator, if_pos rfl]
    · rw [hcalculator, if_neg hsession]
  | some m =>
    rw [hreply] at hu
    have hpushed : ∀ other, w.connection? other = (v.connection? other).map fun c =>
        if c.client = client then { c with outbox := c.outbox.push m } else c := fun other => by
      rw [hu, connection?_updateConnection (f := fun c => { c with outbox := c.outbox.push m })
        (fun _ => ⟨rfl, rfl⟩), hconnection]
    have hkept : ∀ session, w.calculator? session = u.calculator? session := fun session => by
      rw [hu]
      rfl
    refine ⟨?_, fun other hother => ?_, ?_, fun session hsession => ?_⟩
    · rw [hpushed, hc, Option.map_some, if_pos (client_of_connection? hc), Option.toList_some,
        Remote.Outbox.push_of_room hroom]
    · rw [hpushed]
      cases hfind : v.connection? other with
      | none => rfl
      | some c' =>
        have hne : ¬ c'.client = client := fun h => hother ((client_of_connection? hfind).symm.trans h)
        rw [Option.map_some, if_neg hne]
    · rw [hkept, hcalculator, if_pos rfl]
    · rw [hkept, hcalculator, if_neg hsession]

/-- A text that comes over an open connection is answered at most once, and fails without effect. One that
is too long is not read: it closes the connection. -/
theorem receive_answered [Text.Typeface] {text : String} {now : Int} {w : Server}
    (hc : v.connection? client = some c)
    (hk : v.calculator? c.session = some k) (hroom : c.outbox.hasRoom = true)
    (hw : v.receive client text now = w) :
    (v.isTooBig text = true → w.connection? client = none ∧
        w.connections.map (·.outbox) = v.connections.map (·.outbox) ∧
        ∀ session, w.calculator? session = v.calculator? session) ∧
      (v.isTooBig text = false → ∃ reply k',
        w.connection? client =
            some { c with outbox := { c.outbox with queue := c.outbox.queue ++ reply.toList } } ∧
          (∀ other, other ≠ client → w.connection? other = v.connection? other) ∧
          w.calculator? c.session = some k' ∧
          (∀ session, session ≠ c.session → w.calculator? session = v.calculator? session) ∧
          Remote.Answered (v.circumstances c now) v.limits text k k' reply) := by
  constructor
  · intro hbig
    subst hw
    exact receive_tooBig hc hbig now
  · intro hread
    obtain ⟨hqueue, hothers, hcalculator, hsessions⟩ := receive_read hc hk hroom hread rfl hw
    exact ⟨_, _, hqueue, hothers, hcalculator, hsessions,
      Remote.answered_receive (v.circumstances c now) k v.limits text⟩

/-- A server with one session and an open connection to it. -/
def hosting : Server :=
  { settings := {}
    signer := ⟨.standard, ""⟩
    admin := ⟨"", .standard⟩
    handshake := .standard
    store := {}
    sessions :=
      { live := [⟨"S", "", 0, 0, .new .builtin 1 ⟨fun _ => 0, 0⟩, [0], 1⟩]
        limit := 0
        idleLimit := 0
        keys := .builtin
        stepsPerTick := 1
        dice := ⟨fun _ => 0, 0⟩ }
    connections := [⟨0, "S", "", 0, { capacity := 4 }, none⟩] }

def clearing : String := "\x7b\"type\":21,\"source\":\"ClrHome\"\x7d"

/-- The program is started and said to be, and the calculator is reset to run it. -/
theorem receive_answered_clearing :
    let c : Connection := ⟨0, "S", "", 0, { capacity := 4 }, none⟩
    let k : Calculator := .new .builtin 1 ⟨fun _ => 0, 0⟩
    let w := hosting.receive 0 clearing 0
    hosting.connection? 0 = some c ∧ hosting.calculator? "S" = some k ∧ c.outbox.hasRoom = true ∧
      hosting.isTooBig clearing = false ∧
      (w.connection? 0).map (·.outbox.queue) = some [.loaded "SOURCE"] ∧
      ∃ k', w.calculator? "S" = some k' ∧ k.ResetTo "SOURCE" ⟨[⟨1, .clearHome⟩], []⟩ k' := by
  intro c k w
  have hc : hosting.connection? 0 = some c := rfl
  have hk : hosting.calculator? c.session = some k := rfl
  have hroom : c.outbox.hasRoom = true := by decide
  have hread : hosting.isTooBig clearing = false := by decide +kernel
  have hdecode : Remote.Envelope.decode? clearing = some { type := 21, source := "ClrHome" } := by
    decide +kernel
  have hcompile : Program.compile "ClrHome" = .ok ⟨[⟨1, .clearHome⟩], []⟩ := by cbv
  obtain ⟨reply, k', hqueue, -, hk', -, hanswered⟩ :=
    (receive_answered hc hk hroom (rfl : hosting.receive 0 clearing 0 = w)).2 hread
  have hasks : Remote.Envelope.Asks (hosting.circumstances c 0) { type := 21, source := "ClrHome" }
      Remote.sourceName ⟨[⟨1, .clearHome⟩], []⟩ := .source rfl hcompile
  have hallowed : Remote.Allowed (hosting.circumstances c 0) hosting.limits := by
    unfold Remote.Allowed
    decide +kernel
  have hreply : reply = some (.loaded "SOURCE") :=
    (hanswered.succeeds _ _ hdecode).mpr ⟨⟨.run "ClrHome", by decide⟩, hallowed, _, hasks⟩
  obtain ⟨program, hprogram, hreset⟩ := (hanswered.loaded _ _ hdecode).mp hreply
  cases hcompile.symm.trans (hprogram.compiled_of_source rfl)
  exact ⟨hc, hk, hroom, hread, by rw [hqueue, hreply]; rfl, k', hk', hreset⟩

end Server

end PocketBasic
