import PocketBasic.Proofs.Server.Seats

/-!
# What happens to a server

Besides requests, a server sees messages of its clients, ticks of their clocks, and connections that end.
None of these opens a connection.
-/

namespace PocketBasic.Server

open Web (Request)

inductive Event where
  | request (m : Moment) (r : Request)
  | message (client : Nat) (text : String) (now : Int)
  | binary (client : Nat) (text : String) (now : Int)
  | tick (client : Nat)
  /-- The writer of a client takes messages, at most so many. -/
  | take (client n : Nat)
  /-- The writer of a client waits, or is busy otherwise. -/
  | turn (client : Nat) (waits : Bool)
  | close (client code : Nat) (now : Int)
  | cleanUp (now : Int)
  | prune (now : Int)

def apply [Text.Typeface] (v : Server) : Event → Server
  | .request m r => (v.handle m r).1
  | .message client text now => v.receive client text now
  | .binary client text now => v.receiveBinary client text now
  | .tick client => v.tick client
  | .take client n => (v.take client n).1
  | .turn client waits => v.turn client waits
  | .close client code now => v.closeConnection client code now
  | .cleanUp now => { v with sessions := (v.sessions.cleanUp now).1 }
  | .prune now => v.pruneLimits now

def after [Text.Typeface] (v : Server) (events : List Event) : Server := events.foldl apply v

variable {v w : Server} {client : Nat} {text : String} {now : Int}

theorem keepsRoster_outbox (v : Server) (client : Nat) (g : Connection → Remote.Outbox) :
    KeepsRoster v (v.updateConnection client fun c => { c with outbox := g c }) where
  clients _ _ h := h
  roster := roster_updateConnection (f := fun c => { c with outbox := g c }) (fun _ => ⟨rfl, rfl⟩) v client
  next := rfl

theorem keepsRoster_receive [Text.Typeface] (v : Server) (client : Nat) (text : String) (now : Int) :
    KeepsRoster v (v.receive client text now) := by
  unfold receive
  split
  · exact keepsRoster_of_eq rfl rfl rfl
  · split
    · exact keepsRoster_closeConnection v client closedTooBig now
    · split
      · exact keepsRoster_of_eq rfl rfl rfl
      · simp only
        split
        · refine KeepsRoster.trans ?_ (keepsRoster_outbox _ client _)
          split <;> exact keepsRoster_of_eq rfl rfl rfl
        · split <;> exact keepsRoster_of_eq rfl rfl rfl

theorem keepsRoster_receiveBinary (v : Server) (client : Nat) (text : String) (now : Int) :
    KeepsRoster v (v.receiveBinary client text now) := by
  unfold receiveBinary
  split
  · exact keepsRoster_closeConnection v client closedTooBig now
  · exact keepsRoster_of_eq rfl rfl rfl

theorem keepsRoster_tick [Text.Typeface] (v : Server) (client : Nat) : KeepsRoster v (v.tick client) := by
  unfold tick
  cases v.connection? client with
  | none => exact keepsRoster_of_eq rfl rfl rfl
  | some c =>
    simp only
    cases v.calculator? c.session with
    | none => exact keepsRoster_of_eq rfl rfl rfl
    | some calculator =>
      have hset : KeepsRoster v (v.setCalculator c.session (c.outbox.tick calculator).2) :=
        keepsRoster_of_eq rfl rfl rfl
      exact hset.trans (keepsRoster_outbox _ client _)

theorem keepsRoster_take (v : Server) (client n : Nat) : KeepsRoster v (v.take client n).1 := by
  unfold take
  split
  · exact keepsRoster_of_eq rfl rfl rfl
  · exact keepsRoster_outbox v client _

theorem keepsRoster_turn (v : Server) (client : Nat) (waits : Bool) : KeepsRoster v (v.turn client waits) :=
  keepsRoster_outbox v client fun c => c.outbox.turn waits

theorem keepsRoster_apply [Text.Typeface] {e : Event} (he : ∀ m r, e ≠ .request m r) (v : Server) :
    KeepsRoster v (v.apply e) := by
  cases e with
  | request m r => exact absurd rfl (he m r)
  | message client text now => exact keepsRoster_receive v client text now
  | binary client text now => exact keepsRoster_receiveBinary v client text now
  | tick client => exact keepsRoster_tick v client
  | take client n => exact keepsRoster_take v client n
  | turn client waits => exact keepsRoster_turn v client waits
  | close client code now => exact keepsRoster_closeConnection v client code now
  | cleanUp now => exact keepsRoster_of_eq rfl rfl rfl
  | prune now => exact keepsRoster_of_eq rfl rfl rfl

end PocketBasic.Server
