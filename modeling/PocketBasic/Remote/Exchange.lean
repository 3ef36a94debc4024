import PocketBasic.Library.Store
import PocketBasic.Remote.Message
import PocketBasic.Remote.Outbox
import PocketBasic.Remote.RateLimit
import PocketBasic.Settings.Duration

/-!
# Answering a client

Each message of a client is answered at most once. A request that fails leaves the calculator as it
was.
-/

namespace PocketBasic.Remote

open Library (Store StoreError)

variable [Text.Typeface]

structure Circumstances where
  /-- The library, if programs can be loaded from it. -/
  library : Option Store
  /-- The address that loads are counted for. -/
  address : String
  loadLimit : Int
  now : Int

structure Handled where
  calculator : Calculator
  limits : RateLimit
  reply : Option Message := none
  /-- The message was in order, which counts as activity. -/
  inOrder : Bool := true

def sourceName : String := "SOURCE"

def start (c : Calculator) (limits : RateLimit) (name source : String) : Handled :=
  match c.load name source with
  | .ok c' => { calculator := c', limits, reply := some (.loaded name) }
  | .error f => { calculator := c, limits, reply := some (.failure f.message) }

def loadFailure (name : String) (e : StoreError) : String :=
  match e with
  | .notFound _ => e.message
  | .invalidName _ => e.message
  | _ => "could not load " ++ name

def loadStored (x : Circumstances) (c : Calculator) (limits : RateLimit) (name : String) :
    Handled :=
  match x.library with
  | none => { calculator := c, limits, reply := some (.failure "program library unavailable") }
  | some store => match store.get name with
    | .ok item => start c limits item.name item.source
    | .error e => { calculator := c, limits, reply := some (.failure (loadFailure name e)) }

/-- Goes on with a load if there have not been too many. -/
def limited (x : Circumstances) (c : Calculator) (limits : RateLimit) (load : RateLimit → Handled) :
    Handled :=
  match limits.allow "load" x.address x.loadLimit Duration.minute x.now with
  | (limits', true) => load limits'
  | (limits', false) =>
    { calculator := c, limits := limits', reply := some (.failure "too many requests") }

def carryOut (x : Circumstances) (c : Calculator) (limits : RateLimit) : Request → Handled
  | .keepAlive => { calculator := c, limits }
  | .keyDown code => { calculator := c.keyDown code, limits }
  | .keyUp code key => { calculator := c.keyUp code key, limits }
  | .load name => limited x c limits fun limits => loadStored x c limits name
  | .run source => limited x c limits fun limits => start c limits sourceName source

def receive (x : Circumstances) (c : Calculator) (limits : RateLimit) (text : String) : Handled :=
  match Envelope.decode? text with
  | none =>
    { calculator := c, limits, reply := some (.failure "malformed message"), inOrder := false }
  | some e => match e.request with
    | .error fault =>
      { calculator := c, limits, reply := some (.failure fault.message), inOrder := false }
    | .ok r => carryOut x c limits r

end PocketBasic.Remote
