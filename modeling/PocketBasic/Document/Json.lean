import PocketBasic.Number.Integer
import PocketBasic.Text.Scanner
import PocketBasic.Text.Utf8

/-!
# JSON documents

Values as they are written: the fields of an object stand in order, repeated ones included, and a
number keeps its digits. `parse?` reads a whole text, `parseFront?` the value at its front.
-/

namespace PocketBasic.Json

open Text Text.Scanner

inductive Value where
  | null
  | bool (b : Bool)
  | number (literal : String)
  | text (s : String)
  | array (items : List Value)
  | object (fields : List (String × Value))

abbrev Fields := List (String × Value)

def isSpace (c : Char) : Bool := c = ' ' || c = '\t' || c = '\n' || c = '\r'

def spaces : Scanner Unit := do
  let _ ← run isSpace

/-! ### Numbers -/

def digits : Scanner (List Char) := do
  let ds ← run Number.isDecimalDigit
  if ds.isEmpty then fail else pure ds

def sign (signs : List Char) : Scanner (List Char) := do
  match ← peek with
  | some c => if signs.contains c then do skip 1; pure [c] else pure []
  | none => pure []

/-- The digits before the point: a leading zero stands alone. -/
def wholePart : Scanner (List Char) := do
  if (← peek) = some '0' then do skip 1; pure ['0'] else digits

def fractionPart : Scanner (List Char) := do
  if (← peek) = some '.' then do
    skip 1
    let ds ← digits
    pure ('.' :: ds)
  else pure []

def exponentPart : Scanner (List Char) := do
  match ← peek with
  | some c =>
    if c = 'e' || c = 'E' then do
      skip 1
      let s ← sign ['+', '-']
      let ds ← digits
      pure (c :: s ++ ds)
    else pure []
  | none => pure []

def number : Scanner String := do
  let s ← sign ['-']
  let w ← wholePart
  let f ← fractionPart
  let e ← exponentPart
  pure (String.ofList (s ++ w ++ f ++ e))

/-! ### Text -/

/-- Four hexadecimal digits, as after a `u` in an escape. -/
def hexUnit : Scanner Nat := do
  let cs ← rest
  let ds := cs.take 4
  skip 4
  if ds.length = 4 && ds.all Number.isHexDigit then pure (Number.natOfDigits 16 ds) else fail

def isHighSurrogate (n : Nat) : Bool := 0xD800 ≤ n && n < 0xDC00

def isLowSurrogate (n : Nat) : Bool := 0xDC00 ≤ n && n < 0xE000

def surrogatePair (high low : Nat) : Char :=
  Char.ofNat (0x10000 + (high - 0xD800) * 0x400 + (low - 0xDC00))

/-- The low surrogate that the text goes on with, if it does. -/
def lowSurrogate? (cs : List Char) : Option Nat :=
  match cs with
  | '\\' :: 'u' :: more => match hexUnit more with
    | some (n, _) => if isLowSurrogate n then some n else none
    | none => none
  | _ => none

/-- A character given by UTF-16 units. A surrogate without its partner is replaced. -/
def unicodeEscape : Scanner Char := do
  let n ← hexUnit
  if isHighSurrogate n then
    match lowSurrogate? (← rest) with
    | some low => do skip 6; pure (surrogatePair n low)
    | none => pure replacement
  else if isLowSurrogate n then pure replacement
  else pure (Char.ofNat n)

def escape : Scanner Char := do
  match ← next with
  | '"' => pure '"'
  | '\\' => pure '\\'
  | '/' => pure '/'
  | 'b' => pure '\x08'
  | 'f' => pure '\x0c'
  | 'n' => pure '\n'
  | 'r' => pure '\r'
  | 't' => pure '\t'
  | 'u' => unicodeEscape
  | _ => fail

/-- The characters up to the closing quote; `read` holds those before, last first. -/
def quotedRest : Nat → List Char → Scanner String
  | 0, _ => fail
  | n + 1, read => do
    match ← next with
    | '"' => pure (String.ofList read.reverse)
    | '\\' => do
      let c ← escape
      quotedRest n (c :: read)
    | c => if c.toNat < 32 then fail else quotedRest n (c :: read)

def quoted : Scanner String := do
  char '"'
  quotedRest ((← rest).length + 1) []

/-! ### Values -/

/-- Items after an opening bracket, up to the bracket `close`. -/
def items {α : Type} (item : Scanner α) (close : Char) : Nat → Scanner (List α)
  | 0 => fail
  | n + 1 => do
    spaces
    let a ← item
    spaces
    let c ← next
    if c = close then pure [a]
    else if c = ',' then do
      let more ← items item close n
      pure (a :: more)
    else fail

def bracketed {α : Type} (item : Scanner α) (close : Char) : Scanner (List α) := do
  spaces
  if (← peek) = some close then do
    skip 1
    pure []
  else items item close ((← rest).length + 1)

def field (value : Scanner Value) : Scanner (String × Value) := do
  let name ← quoted
  spaces
  char ':'
  spaces
  let v ← value
  pure (name, v)

def scalar : Scanner Value := do
  match ← peek with
  | some 'n' => do word "null"; pure .null
  | some 't' => do word "true"; pure (.bool true)
  | some 'f' => do word "false"; pure (.bool false)
  | some '"' => do
    let s ← quoted
    pure (.text s)
  | _ => do
    let n ← number
    pure (.number n)

/-- A value with containers nested at most so deep. -/
def value : Nat → Scanner Value
  | 0 => scalar
  | depth + 1 => do
    match ← peek with
    | some '[' => do
      skip 1
      let vs ← bracketed (value depth) ']'
      pure (.array vs)
    | some '\x7b' => do
      skip 1
      let fs ← bracketed (field (value depth)) '\x7d'
      pure (.object fs)
    | _ => scalar

def maxDepth : Nat := 10000

def document : Scanner Value := do
  spaces
  value maxDepth

def wholeDocument : Scanner Value := do
  let v ← document
  spaces
  pure v

def parse? (text : String) : Option Value :=
  Scanner.parse? wholeDocument text.toList

/-- The value at the front of a text. What follows an object or an array does not matter; what
follows anything else has to be a space. -/
def parseFront? (text : String) : Option Value :=
  match document text.toList with
  | some (.array vs, _) => some (.array vs)
  | some (.object fs, _) => some (.object fs)
  | some (v, []) => some v
  | some (v, c :: _) => if isSpace c then some v else none
  | none => none

/-! ### Reading fields

Names are compared without regard to case. Of repeated fields the last one counts, and a field that
is null counts as not given. -/

/-- A character in the case in which names are compared. -/
def foldChar (c : Char) : Char :=
  if c.toNat = 0x17F then 's'
  else if c.toNat = 0x212A then 'k'
  else c.toLower

def sameName (a b : String) : Bool := a.toList.map foldChar = b.toList.map foldChar

def fieldOr {α : Type} (start : α) (read? : Value → Option α) (name : String) :
    Fields → Option α
  | [] => some start
  | (k, v) :: rest =>
    if sameName k name then
      match v with
      | .null => fieldOr start read? name rest
      | v => match read? v with
        | some a => fieldOr a read? name rest
        | none => none
    else fieldOr start read? name rest

def Value.text? : Value → Option String
  | .text s => some s
  | _ => none

def Value.bool? : Value → Option Bool
  | .bool b => some b
  | _ => none

def Value.integer? : Value → Option Int
  | .number s => Number.readInteger? s
  | _ => none

def Value.natural? : Value → Option Nat
  | .number s =>
    (Number.readNatural? s.toList).bind fun n => if n < Nat.pow 2 64 then some n else none
  | _ => none

def Value.texts? : Value → Option (List String)
  | .array vs => vs.mapM fun v => match v with
    | .null => some ""
    | v => v.text?
  | _ => none

/-! ### Writing -/

def escapeChar (c : Char) : List Char :=
  match c with
  | '"' => ['\\', '"']
  | '\\' => ['\\', '\\']
  | '\n' => ['\\', 'n']
  | '\r' => ['\\', 'r']
  | '\t' => ['\\', 't']
  | '\x08' => ['\\', 'b']
  | '\x0c' => ['\\', 'f']
  | c =>
    if c.toNat < 32 then
      '\\' :: 'u' :: '0' :: '0' :: [Nat.digitChar (c.toNat / 16), Nat.digitChar (c.toNat % 16)]
    else [c]

def renderText (s : String) : String :=
  "\"" ++ String.ofList (s.toList.flatMap escapeChar) ++ "\""

mutual

def Value.render : Value → String
  | .null => "null"
  | .bool true => "true"
  | .bool false => "false"
  | .number literal => literal
  | .text s => renderText s
  | .array vs => "[" ++ ",".intercalate (renderItems vs) ++ "]"
  | .object fs => "\x7b" ++ ",".intercalate (renderFields fs) ++ "\x7d"

def renderItems : List Value → List String
  | [] => []
  | v :: vs => v.render :: renderItems vs

def renderFields : Fields → List String
  | [] => []
  | (k, v) :: fs => (renderText k ++ ":" ++ v.render) :: renderFields fs

end

def ofInt (n : Int) : Value := .number (toString n)

end PocketBasic.Json
