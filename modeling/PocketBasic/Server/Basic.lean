import PocketBasic.Access.Admin
import PocketBasic.Access.Token
import PocketBasic.Remote.Exchange
import PocketBasic.Remote.Registry
import PocketBasic.Session.Basic
import PocketBasic.Web.Handshake

/-!
# Connections to sessions

The server holds the program library, the sessions and the connections to them. A connection belongs
to one session and shows its calculator to one client. Signatures, passwords and handshakes are left to
others.
-/

namespace PocketBasic

structure Connection where
  client : Nat
  session : String
  /-- The address that the client is counted for. -/
  address : String
  /-- The number of its attachment to the session. -/
  attachment : Nat
  outbox : Remote.Outbox
  /-- The code with which it was closed. -/
  closed : Option Nat := none

structure Server where
  settings : Settings
  signer : Access.Signer
  admin : Access.Administrator
  handshake : Web.Handshake
  store : Library.Store
  /-- Sessions can load programs from the library. -/
  offersLibrary : Bool := true
  sessions : Sessions
  limits : Remote.RateLimit := []
  clients : Remote.Registry := []
  connections : List Connection := []
  nextClient : Nat := 0

namespace Server

variable [Text.Typeface]

def closedNormally : Nat := 1000
def closedTooBig : Nat := 1009

def connection? (v : Server) (client : Nat) : Option Connection :=
  v.connections.find? fun c => c.client = client && c.closed.isNone

def updateConnection (v : Server) (client : Nat) (f : Connection → Connection) : Server :=
  { v with connections := v.connections.map fun c => if c.client = client then f c else c }

def calculator? (v : Server) (session : String) : Option Calculator :=
  (v.sessions.find? session).map (·.calculator)

def setCalculator (v : Server) (session : String) (c : Calculator) : Server :=
  { v with sessions := v.sessions.update session fun s => { s with calculator := c } }

/-- Opens a connection of a client to a session. The connection whose place it takes is not closed yet, and
neither the clock nor the writer has started. -/
def openConnection (v : Server) (s : Session) (address : String) (now : Int) :
    Server × Nat × Option Nat :=
  let client := v.nextClient
  let (clients, previous) := v.clients.add s.id client
  let capacity := (v.settings.getInt "Network" "send_buffer" 64).toNat
  let c : Connection :=
    ⟨client, s.id, address, s.nextAttachment, .opened capacity s.id, none⟩
  ({ v with
      clients := clients
      connections := v.connections ++ [c]
      nextClient := client + 1
      sessions := v.sessions.update s.id (·.attach now) }, client, previous)

def closeConnection (v : Server) (client code : Nat) (now : Int) : Server :=
  match v.connection? client with
  | none => v
  | some c =>
    let v := v.updateConnection client fun c => { c with closed := some code }
    { v with
      clients := v.clients.remove c.session client
      sessions := v.sessions.update c.session (·.detach c.attachment now) }

/-- A new connection of a client to a session, in place of the one that there may have been. -/
def connect (v : Server) (s : Session) (address : String) (now : Int) : Server × Nat :=
  let (v, client, previous) := v.openConnection s address now
  match previous with
  | some old => (v.closeConnection old closedNormally now, client)
  | none => (v, client)

/-- The longest message of a client in bytes; there is no limit if it is not positive. -/
def messageLimit (v : Server) : Int :=
  (v.settings.getInt "Network" "max_message_size_kb" 64 * 1024).bmod (Nat.pow 2 64)

def isTooBig (v : Server) (text : String) : Bool :=
  0 < v.messageLimit && v.messageLimit < text.utf8ByteSize

def circumstances (v : Server) (c : Connection) (now : Int) : Remote.Circumstances :=
  { library := if v.offersLibrary then some v.store else none
    address := c.address
    loadLimit := v.settings.getInt "Network" "max_loads_per_minute" 30
    now := now }

/-- A message of a client. One that is too long closes the connection. -/
def receive (v : Server) (client : Nat) (text : String) (now : Int) : Server :=
  match v.connection? client with
  | none => v
  | some c =>
    if v.isTooBig text then v.closeConnection client closedTooBig now
    else match v.calculator? c.session with
      | none => v
      | some calculator =>
        let h := Remote.receive (v.circumstances c now) calculator v.limits text
        let v := { v.setCalculator c.session h.calculator with limits := h.limits }
        let v := if h.inOrder then
            { v with sessions := v.sessions.update c.session (·.touch now) } else v
        match h.reply with
        | some m => v.updateConnection client fun c => { c with outbox := c.outbox.push m }
        | none => v

/-- A message of a client that is not text. Only its length matters. -/
def receiveBinary (v : Server) (client : Nat) (text : String) (now : Int) : Server :=
  if (v.connection? client).isSome && v.isTooBig text then
    v.closeConnection client closedTooBig now
  else v

def tick (v : Server) (client : Nat) : Server :=
  match v.connection? client with
  | none => v
  | some c => match v.calculator? c.session with
    | none => v
    | some calculator =>
      let (outbox, calculator) := c.outbox.tick calculator
      (v.setCalculator c.session calculator).updateConnection client fun c =>
        { c with outbox := outbox }

/-- The writer of a client takes messages, at most so many, which are sent. -/
def take (v : Server) (client n : Nat) : Server × List Remote.Message :=
  match v.connections.find? (·.client = client) with
  | none => (v, [])
  | some c =>
    let (outbox, messages) := c.outbox.take n
    (v.updateConnection client fun c => { c with outbox := outbox }, messages)

def turn (v : Server) (client : Nat) (waits : Bool) : Server :=
  v.updateConnection client fun c => { c with outbox := c.outbox.turn waits }

/-- Sends all that is queued for a client, and has its writer wait for more. -/
def drain (v : Server) (client : Nat) : Server × List Remote.Message :=
  let queued := (v.connections.find? (·.client = client)).elim 0 (·.outbox.queue.length)
  let (v, messages) := v.take client queued
  (v.turn client true, messages)

/-- Ticks a connection while the program of a session runs, at most so many times, and sends what is
queued after each tick. -/
def tickWhileRunning (v : Server) (session : String) (client : Nat) : Nat → Server
  | 0 => v
  | n + 1 => match v.calculator? session with
    | some c =>
      if c.mode = .run then ((v.tick client).drain client).1.tickWhileRunning session client n
      else v
    | none => v

def pruneLimits (v : Server) (now : Int) : Server :=
  { v with limits := v.limits.prune Duration.minute now }

end Server

end PocketBasic
