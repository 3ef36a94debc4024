import PocketBasic.Proofs.Remote.Feed
import PocketBasic.Proofs.Server.Receiving

/-!
# The connections of a server are fed

An open connection of a server, taken with the calculator of its session, is a feed. A tick, a message that
is read, and what its writer takes are events of this feed. A connection that is opened starts with the
message that names its session.
-/

namespace PocketBasic.Server

open Remote (Feed Outbox)

/-- The open connection of a client with the calculator that it shows. The server does not keep what has been
sent. -/
def feed? (v : Server) (client : Nat) : Option Feed :=
  (v.connection? client).bind fun c => (v.calculator? c.session).map fun k =>
    { outbox := c.outbox, calculator := k, limits := v.limits }

variable {v : Server} {client : Nat} {c : Connection} {k : Calculator}

theorem feed?_eq (hc : v.connection? client = some c) (hk : v.calculator? c.session = some k) :
    v.feed? client = some { outbox := c.outbox, calculator := k, limits := v.limits } := by
  rw [feed?, hc, Option.bind_some, hk, Option.map_some]

theorem connection?_outbox (g : Connection → Outbox) (hc : v.connection? client = some c) :
    (v.updateConnection client fun c => { c with outbox := g c }).connection? client =
      some { c with outbox := g c } := by
  rw [connection?_updateConnection (f := fun c => { c with outbox := g c }) (fun _ => ⟨rfl, rfl⟩), hc,
    Option.map_some, if_pos (client_of_connection? hc)]

theorem feed?_openConnection {s : Session} {address : String} {now : Int}
    (hfresh : v.connection? v.nextClient = none) (hs : v.sessions.find? s.id = some s) :
    ∃ capacity, (v.openConnection s address now).1.feed? v.nextClient =
      some (.opened capacity s.id s.calculator v.limits) := by
  let capacity := (v.settings.getInt "Network" "send_buffer" 64).toNat
  let opened : Connection :=
    ⟨v.nextClient, s.id, address, s.nextAttachment, .opened capacity s.id, none⟩
  have hconnection : (v.openConnection s address now).1.connection? v.nextClient = some opened := by
    unfold connection? at hfresh ⊢
    have hconnections : (v.openConnection s address now).1.connections = v.connections ++ [opened] := rfl
    rw [hconnections, List.find?_append, hfresh, Option.none_or]
    simp [opened]
  have hcalculator : (v.openConnection s address now).1.calculator? s.id = some s.calculator := by
    refine (calculator?_of_kept (f := (·.attach now)) (fun _ => rfl) (fun _ => rfl) rfl s.id).trans ?_
    rw [calculator?, hs, Option.map_some]
  exact ⟨capacity, feed?_eq hconnection hcalculator⟩

theorem feed?_tick [Text.Typeface] (hc : v.connection? client = some c)
    (hk : v.calculator? c.session = some k) :
    (v.tick client).feed? client = (v.feed? client).map (·.apply .clock) := by
  let set := v.setCalculator c.session (c.outbox.tick k).2
  have htick : v.tick client =
      set.updateConnection client fun d => { d with outbox := (c.outbox.tick k).1 } := by
    unfold tick
    rw [hc]
    simp only [hk]
    rfl
  have hconnection := connection?_outbox (v := set) (fun _ => (c.outbox.tick k).1) hc
  have hcalculator : set.calculator? c.session = some (c.outbox.tick k).2 := by
    rw [calculator?_setCalculator, if_pos rfl, hk, Option.map_some]
  rw [htick, feed?_eq hconnection hcalculator, feed?_eq hc hk]
  rfl

theorem limits_receive [Text.Typeface] {text : String} (hc : v.connection? client = some c)
    (hk : v.calculator? c.session = some k) (hread : v.isTooBig text = false) (now : Int) :
    (v.receive client text now).limits = (Remote.receive (v.circumstances c now) k v.limits text).limits := by
  unfold receive
  rw [hc]
  simp only [hread, Bool.false_eq_true, if_false, hk]
  split <;> split <;> rfl

theorem feed?_receive [Text.Typeface] {text : String} {now : Int} (hc : v.connection? client = some c)
    (hk : v.calculator? c.session = some k) (hread : v.isTooBig text = false) :
    (v.receive client text now).feed? client =
      (v.feed? client).map (·.apply (.message (v.circumstances c now) text)) := by
  have hlimits := limits_receive hc hk hread now
  obtain ⟨u, hconnections, hcalculator, hu⟩ :=
    receive_eq hc hk hread (rfl : Remote.receive (v.circumstances c now) k v.limits text = _)
  have hkept : u.connection? client = some c := by rw [connection?, hconnections, ← connection?, hc]
  have hset := (hcalculator c.session).trans (if_pos rfl)
  rw [feed?_eq hc hk, Option.map_some]
  cases hreply : (Remote.receive (v.circumstances c now) k v.limits text).reply with
  | none =>
    rw [hreply] at hu
    rw [hu] at hlimits ⊢
    rw [feed?_eq hkept hset, hlimits]
    simp only [Feed.apply, hreply]
    rfl
  | some m =>
    rw [hreply] at hu
    rw [hu] at hlimits ⊢
    rw [feed?_eq (connection?_outbox (fun c => c.outbox.push m) hkept) hset, hlimits]
    simp only [Feed.apply, hreply]
    rfl

theorem feed?_take [Text.Typeface] (hfirst : v.connections.find? (·.client = client) = some c)
    (hc : v.connection? client = some c) (hk : v.calculator? c.session = some k) (n : Nat) :
    ∃ f, v.feed? client = some f ∧ (v.take client n).2 = (f.apply (.take n)).taken ∧
      (v.take client n).1.feed? client = some { f.apply (.take n) with taken := [] } := by
  have htake : v.take client n =
      (v.updateConnection client fun d => { d with outbox := (c.outbox.take n).1 }, (c.outbox.take n).2) := by
    unfold take
    rw [hfirst]
  have hconnection := connection?_outbox (fun _ => (c.outbox.take n).1) hc
  refine ⟨_, feed?_eq hc hk, ?_, ?_⟩
  · rw [htake]
    rfl
  · rw [htake, feed?_eq hconnection hk]
    rfl

theorem feed?_turn [Text.Typeface] (hc : v.connection? client = some c)
    (hk : v.calculator? c.session = some k) (waits : Bool) :
    (v.turn client waits).feed? client = (v.feed? client).map (·.apply (.turn waits)) := by
  rw [turn, feed?_eq hc hk, feed?_eq (connection?_outbox (fun d => d.outbox.turn waits) hc) hk]
  rfl

end PocketBasic.Server
