import PocketBasic.Calculator.Basic
import PocketBasic.Settings.Basic

/-!
# Sessions

A session is a calculator that belongs to a visitor. Connections attach to it. A session without a
connection that has been idle for too long is cleared away. All times are nanoseconds of one clock.
-/

namespace PocketBasic

structure Session where
  id : String
  address : String
  created : Int
  lastActivity : Int
  calculator : Calculator
  /-- The numbers of the attachments that are open. -/
  attachments : List Nat := []
  nextAttachment : Nat := 0

namespace Session

def touch (s : Session) (now : Int) : Session := { s with lastActivity := now }

def isConnected (s : Session) : Bool := !s.attachments.isEmpty

/-- Attaches a connection. The new attachment has the number `s.nextAttachment`. -/
def attach (s : Session) (now : Int) : Session :=
  { s with
    attachments := s.nextAttachment :: s.attachments
    nextAttachment := s.nextAttachment + 1
    lastActivity := now }

/-- Ends an attachment. One that has ended before stays as it is. -/
def detach (s : Session) (attachment : Nat) (now : Int) : Session :=
  if s.attachments.contains attachment then
    { s with attachments := s.attachments.filter (· ≠ attachment), lastActivity := now }
  else s

/-- No connection is attached and the last activity lies before the given time. -/
def isIdleSince (s : Session) (time : Int) : Bool := !s.isConnected && s.lastActivity < time

end Session

inductive SessionError where
  | notFound (id : String)
  | tooMany (limit : Int)
deriving DecidableEq, Repr

def SessionError.message : SessionError → String
  | .notFound id => "session not found: " ++ id
  | .tooMany limit => "maximum number of sessions reached: " ++ toString limit

structure Sessions where
  live : List Session := []
  /-- The greatest number of sessions; there is no limit if it is not positive. -/
  limit : Int
  /-- How long a session may be idle. -/
  idleLimit : Int
  keys : KeyMap
  stepsPerTick : Int
  dice : Dice

namespace Sessions

/-- A table without sessions, as the settings ask for. `keys` is the key map of the file that they
name. -/
def ofSettings (s : Settings) (keys : KeyMap) (dice : Dice) : Sessions :=
  { limit := s.getInt "Session" "max_sessions" 100
    idleLimit := s.getDuration "Session" "max_inactive_time" (30 * Duration.minute)
    keys := keys
    stepsPerTick := s.getInt "Server" "steps_per_tick" 1
    dice := dice }

/-- The key map for new sessions: that of a file, or the built-in one if the file is missing or at
fault. -/
def keysOf (reader : KeyMap.TableReader) (file : Option String) : KeyMap :=
  match file with
  | none => .builtin
  | some text => match KeyMap.ofDocument reader text with
    | .ok keys => keys
    | .error _ => .builtin

def count (t : Sessions) : Nat := t.live.length

def find? (t : Sessions) (id : String) : Option Session := t.live.find? (·.id = id)

def update (t : Sessions) (id : String) (f : Session → Session) : Sessions :=
  { t with live := t.live.map fun s => if s.id = id then f s else s }

def isFull (t : Sessions) : Bool := 0 < t.limit && t.limit ≤ t.count

/-- Adds a session under an id that has not been used before. -/
def create (t : Sessions) (id address : String) (now : Int) :
    Except SessionError (Sessions × Session) :=
  if t.isFull then .error (.tooMany t.limit)
  else
    let s : Session := ⟨id, address, now, now, .new t.keys t.stepsPerTick t.dice, [], 0⟩
    .ok ({ t with live := t.live ++ [s] }, s)

/-- Looks a session up, which counts as activity. -/
def get (t : Sessions) (id : String) (now : Int) : Except SessionError (Sessions × Session) :=
  match t.find? id with
  | some s => .ok (t.update id (·.touch now), s.touch now)
  | none => .error (.notFound id)

/-- Removes a session; the second part says whether it was live. -/
def remove (t : Sessions) (id : String) : Sessions × Bool :=
  ({ t with live := t.live.filter (·.id ≠ id) }, (t.find? id).isSome)

/-- Clears idle sessions away; the second part is their number. -/
def cleanUp (t : Sessions) (now : Int) : Sessions × Nat :=
  let cutoff := now - t.idleLimit
  let kept := t.live.filter fun s => !s.isIdleSince cutoff
  ({ t with live := kept }, t.live.length - kept.length)

end Sessions

end PocketBasic
