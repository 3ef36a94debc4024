import PocketBasic.Number.Literal
import PocketBasic.Text.Lines
import PocketBasic.Text.Quoted
import PocketBasic.Text.Utf8

/-!
# Request targets

The target of a request is a path and a query, both possibly with percent escapes, or a whole
address with a scheme and a host in front of them.
-/

namespace PocketBasic.Web

open Text (Bytes)

/-! ### Percent escapes -/

def hexValue? (b : UInt8) : Option Nat :=
  let c := Char.ofNat b.toNat
  if Number.isHexDigit c then some (Number.digitValue c) else none

/-- The bytes that an escaped text stands for. In a query a plus stands for a space. -/
def unescape? (query : Bool) : Bytes → Option Bytes
  | [] => some []
  | 0x25 :: a :: b :: rest => do
    let x ← hexValue? a
    let y ← hexValue? b
    let more ← unescape? query rest
    pure (UInt8.ofNat (x * 16 + y) :: more)
  | b :: rest =>
    if b = 0x25 then none
    else (unescape? query rest).map ((if query && b = 0x2B then 0x20 else b) :: ·)

def unescapeText? (query : Bool) (cs : List Char) : Option String :=
  (unescape? query (Text.utf8 (String.ofList cs))).map Text.ofUtf8

def isAlphanumeric (b : UInt8) : Bool :=
  (0x30 ≤ b && b ≤ 0x39) || (0x41 ≤ b && b ≤ 0x5A) || (0x61 ≤ b && b ≤ 0x7A)

def isPathByte (b : UInt8) : Bool :=
  isAlphanumeric b || ("-_.~$&+,/:;=@".toUTF8.toList).contains b

/-- Bytes that a path may hold without an escape. -/
def isPlainInPath (b : UInt8) : Bool :=
  isPathByte b || ("!'()*[]%".toUTF8.toList).contains b

def upperHex (n : Nat) : Char := (Nat.digitChar n).toUpper

def escapeByte (b : UInt8) : List Char := ['%', upperHex (b.toNat / 16), upperHex (b.toNat % 16)]

def escapePath (bytes : Bytes) : List Char :=
  bytes.flatMap fun b => if isPathByte b then [Char.ofNat b.toNat] else escapeByte b

def escapeNonAscii (s : String) : String :=
  String.ofList ((Text.utf8 s).flatMap fun b =>
    if b < 0x80 then [Char.ofNat b.toNat] else escapeByte b)

/-! ### Targets -/

structure Target where
  /-- The host that the target names, if it does. -/
  host : String := ""
  /-- The path with escapes. -/
  path : List Char
  query : List Char := []
  /-- A question mark with nothing behind it stands at the end. -/
  bareQuery : Bool := false

namespace Target

/-- The path as it is handed on: as it was written, if all of it may be written so, and otherwise
with the usual escapes. -/
def normalPath (raw : List Char) : List Char :=
  let bytes := Text.utf8 (String.ofList raw)
  if bytes.all isPlainInPath then raw
  else match unescape? false bytes with
    | some plain => escapePath plain
    | none => raw

def afterScheme? (cs : List Char) : Option (List Char) :=
  let scheme := cs.takeWhile Char.isAlpha
  match cs.dropWhile Char.isAlpha with
  | ':' :: '/' :: '/' :: rest => if scheme.isEmpty then none else some rest
  | _ => none

def ofPath (host : String) (cs : List Char) : Target :=
  match Text.cut? '?' cs with
  | none => { host, path := normalPath cs }
  | some (path, query) => { host, path := normalPath path, query, bareQuery := query.isEmpty }

def ofText (s : String) : Target :=
  match afterScheme? s.toList with
  | none => ofPath "" s.toList
  | some rest => ofPath (String.ofList (rest.takeWhile fun c => c ≠ '/' && c ≠ '?'))
      (rest.dropWhile fun c => c ≠ '/' && c ≠ '?')

def text (t : Target) : String :=
  String.ofList ((if t.path.isEmpty then ['/'] else t.path) ++
    (if t.bareQuery || !t.query.isEmpty then '?' :: t.query else []))

end Target

/-! ### Queries -/

/-- A name and a value of a query. A part with a semicolon or a faulty escape counts for nothing. -/
def queryPair? (part : List Char) : Option (String × String) :=
  if part.isEmpty || part.contains ';' then none
  else
    let (name, value) := (Text.cut? '=' part).getD (part, [])
    do
      let name ← unescapeText? true name
      let value ← unescapeText? true value
      pure (name, value)

def queryPairs (query : List Char) : List (String × String) :=
  (Text.splitAt '&' query).filterMap queryPair?

/-! ### Clean paths -/

/-- Follows the steps of a path from the root; `done` holds the way so far, last step first. -/
def walk (done : List (List Char)) : List (List Char) → List (List Char)
  | [] => done.reverse
  | s :: rest =>
    if s.isEmpty || s = ['.'] then walk done rest
    else if s = ['.', '.'] then walk done.tail rest
    else walk (s :: done) rest

def shortestPath (path : List Char) : List Char :=
  '/' :: ['/'].intercalate (walk [] (Text.splitAt '/' path))

/-- The shortest path, with a slash at its end if there was one. -/
def cleanPath (path : List Char) : List Char :=
  let clean := shortestPath path
  if path.getLast? = some '/' && clean ≠ ['/'] then clean ++ ['/'] else clean

/-- The steps of a clean path, without escapes; a slash at the end is a step of its own. -/
def steps (path : List Char) : List String :=
  let parts := (Text.splitAt '/' path).tail
  if parts.getLast? = some [] then (parts.dropLast.map step) ++ ["/"] else parts.map step
where
  step (cs : List Char) : String := (unescapeText? false cs).getD (String.ofList cs)

end PocketBasic.Web
