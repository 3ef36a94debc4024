import PocketBasic.Calculator.Snapshot
import PocketBasic.Document.Json

/-!
# Messages to a client

Messages wait in a queue of limited length until they are sent. One that finds the queue full is lost. The
clock of a connection starts with a frame, and on every tick a frame is queued if the calculator has changed
since the last one.
-/

namespace PocketBasic.Remote

inductive Message where
  | frame (s : Snapshot)
  | failure (text : String)
  | loaded (name : String)
  | session (id : String)
deriving DecidableEq, Repr

/-- A field that is left out if its text is empty. -/
def givenField (name text : String) : Json.Fields :=
  if text.isEmpty then [] else [(name, .text text)]

def snapshotFields (s : Snapshot) : Json.Fields :=
  [("version", Json.ofInt s.version), ("program", .text s.program), ("run", .text s.run.name),
    ("screen", .text s.screen.name), ("lines", .array (s.lines.map .text)),
    ("cursorRow", Json.ofInt s.cursorRow), ("cursorCol", Json.ofInt s.cursorCol),
    ("showCursor", .bool s.showCursor)] ++
    givenField "input" s.input ++ givenField "menuTitle" s.menuTitle ++
    (if s.menuLabels.isEmpty then [] else [("menuLabels", .array (s.menuLabels.map .text))]) ++
    [("menuIndex", Json.ofInt s.menuIndex)] ++ givenField "error" s.error

def Message.toJson : Message → Json.Value
  | .frame s => .object [("type", Json.ofInt 0), ("frame", .object (snapshotFields s))]
  | .failure text => .object [("type", Json.ofInt 1), ("content", .text text)]
  | .loaded name => .object [("type", Json.ofInt 2), ("name", .text name)]
  | .session id => .object [("type", Json.ofInt 8), ("sessionId", .text id)]

/-- The queue between the clock and the reader of a connection, which put messages into it, and the writer,
which takes them out. -/
structure Outbox where
  capacity : Nat
  queue : List Message := []
  /-- The writer waits for a message. The first one that comes is handed to it. -/
  waiting : Bool := false
  /-- The clock has queued the frame that it starts with. -/
  started : Bool := false
  /-- The version of the last frame that the clock has queued, be it that there was room or not. -/
  sent : Nat := 0
deriving DecidableEq, Repr

namespace Outbox

variable [Text.Typeface]

/-- The queue of a connection to a session, before the clock and the writer start. -/
def opened (capacity : Nat) (session : String) : Outbox :=
  { capacity, queue := if 0 < capacity then [.session session] else [] }

/-- A message in the hands of the writer takes no place in the queue. -/
def hasRoom (o : Outbox) : Bool := o.queue.length < o.capacity + if o.waiting then 1 else 0

def push (o : Outbox) (m : Message) : Outbox :=
  if o.hasRoom then { o with queue := o.queue ++ [m] } else o

def pushFrame (o : Outbox) (c : Calculator) : Outbox :=
  { o with sent := c.version }.push (.frame c.snapshot)

/-- What the clock does: it queues a first frame, and from then on ticks. -/
def tick (o : Outbox) (c : Calculator) : Outbox × Calculator :=
  if o.started then
    let c' := c.tick.2
    if c'.version = o.sent then (o, c') else (o.pushFrame c', c')
  else ({ o.pushFrame c with started := true }, c)

def take (o : Outbox) (n : Nat) : Outbox × List Message :=
  ({ o with queue := o.queue.drop n, waiting := o.waiting && n = 0 }, o.queue.take n)

/-- The writer waits, or is busy otherwise, while nothing is queued. -/
def turn (o : Outbox) (waits : Bool) : Outbox :=
  if o.queue.isEmpty then { o with waiting := waits } else o

end Outbox

end PocketBasic.Remote
