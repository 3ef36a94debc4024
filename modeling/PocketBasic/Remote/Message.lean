import PocketBasic.Document.Json
import PocketBasic.Text.Lines
import PocketBasic.Text.Quoted

/-!
# Messages from a client

A client sends JSON objects that press keys, load a stored program or run a text. `Envelope.decode?`
reads one and `Envelope.request` checks what it asks for.
-/

namespace PocketBasic.Remote

structure Envelope where
  type : Int := 0
  code : String := ""
  key : String := ""
  name : String := ""
  source : String := ""
deriving DecidableEq, Repr

inductive Request where
  | keepAlive
  | keyDown (code : String)
  | keyUp (code key : String)
  | load (name : String)
  | run (source : String)
deriving DecidableEq, Repr

inductive RequestError where
  | keyCode (code : String)
  | keyText
  | programName (name : String)
  | sourceTooLong
  | unknownType (type : Int)
deriving DecidableEq, Repr

def maxKeyLength : Nat := 32
def maxNameLength : Nat := 16
def maxSourceLength : Nat := 32768

def RequestError.message (e : RequestError) : String :=
  "invalid message: " ++ match e with
    | .keyCode code => "key code " ++ Text.quote code
    | .keyText => "key text too long"
    | .programName name => "program name " ++ Text.quote name
    | .sourceTooLong => "source exceeds " ++ toString maxSourceLength ++ " bytes"
    | .unknownType type => "type " ++ toString type

namespace Envelope

open Json (Fields fieldOr)

/-- The fields of a frame are well typed. Nothing is done with a frame that a client sends. -/
def frame? : Json.Value → Option Unit
  | .object fs => do
    let _ ← fieldOr 0 Json.Value.natural? "version" fs
    for name in ["program", "run", "screen", "input", "menuTitle", "error"] do
      let _ ← fieldOr "" Json.Value.text? name fs
    for name in ["cursorRow", "cursorCol", "menuIndex"] do
      let _ ← fieldOr 0 Json.Value.integer? name fs
    for name in ["lines", "menuLabels"] do
      let _ ← fieldOr [] Json.Value.texts? name fs
    let _ ← fieldOr false Json.Value.bool? "showCursor" fs
    pure ()
  | _ => none

def ofFields? (fs : Fields) : Option Envelope := do
  let type ← fieldOr 0 Json.Value.integer? "type" fs
  let code ← fieldOr "" Json.Value.text? "code" fs
  let key ← fieldOr "" Json.Value.text? "key" fs
  let name ← fieldOr "" Json.Value.text? "name" fs
  let source ← fieldOr "" Json.Value.text? "source" fs
  let _ ← fieldOr "" Json.Value.text? "content" fs
  let _ ← fieldOr "" Json.Value.text? "sessionId" fs
  let _ ← fieldOr () frame? "frame" fs
  pure { type, code, key, name, source }

/-- Reads a message; null is one without fields. -/
def decode? (text : String) : Option Envelope :=
  match Json.parse? text with
  | some (.object fs) => ofFields? fs
  | some .null => some {}
  | _ => none

def fits (s : String) (limit : Nat) : Bool := s.utf8ByteSize ≤ limit

def checkKey (e : Envelope) (r : Request) : Except RequestError Request :=
  if e.code.isEmpty || !fits e.code maxKeyLength then .error (.keyCode e.code)
  else if !fits e.key maxKeyLength then .error .keyText
  else .ok r

def request (e : Envelope) : Except RequestError Request :=
  if e.type = 9 then .ok .keepAlive
  else if e.type = 16 then e.checkKey (.keyDown e.code)
  else if e.type = 17 then e.checkKey (.keyUp e.code e.key)
  else if e.type = 20 then
    if e.name.isEmpty || !fits e.name maxNameLength then .error (.programName e.name)
    else .ok (.load e.name)
  else if e.type = 21 then
    if fits e.source maxSourceLength then .ok (.run e.source) else .error .sourceTooLong
  else .error (.unknownType e.type)

end Envelope

end PocketBasic.Remote
