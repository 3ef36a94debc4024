import PocketBasic.Document.Yaml.Scalar

/-!
# YAML tokens

The signs and scalars that a document is made of. Block collections have tokens of their own where
they start and end, though nothing is written there.
-/

namespace PocketBasic.Yaml

inductive Token where
  | streamEnd
  | version (major minor : Nat)
  /-- The meaning of a tag handle. -/
  | handle (name start : String)
  | documentStart
  | documentEnd
  | blockSequence
  | blockMapping
  | blockEnd
  | sequenceStart
  | sequenceEnd
  | mappingStart
  | mappingEnd
  | comma
  | dash
  | key
  | value
  | reference (name : String)
  | anchor (name : String)
  | tag (handle suffix : String)
  | scalar (plain : Bool) (text : String)
deriving DecidableEq

/-! ### Anchors and references -/

/-- The characters that may follow a name besides a gap. -/
def nameEnds : List Char := ['?', ':', ',', ']', '\x7d', '%', '@', Char.ofNat 96]

def anchorName : Reader String := do
  skip
  let cs ← run isNameChar
  let k ← get
  if !cs.isEmpty && (atGap k.rest || k.rest.head?.any nameEnds.contains) then
    pure (String.ofList cs)
  else fail

/-! ### Tags -/

def isUriChar (c : Char) : Bool := isNameChar c || ";/?:@&=+$,.!~*'()[]".toList.contains c

/-- A byte that is written as a percent sign and two digits. -/
def uriByte : Reader UInt8 := do
  if (← next) ≠ '%' then fail
  else do
    let c ← hexEscape 2
    pure (UInt8.ofNat c.toNat)

def uriBytes : Nat → Reader Text.Bytes
  | 0 => pure []
  | n + 1 => do
    let b ← uriByte
    let bs ← uriBytes n
    pure (b :: bs)

/-- How many bytes a character takes whose first byte is `b`; 0 if it is no first byte. -/
def lengthByLead (b : UInt8) : Nat :=
  if b < 0x80 then 1
  else if b < 0xC0 then 0
  else if b < 0xE0 then 2
  else if b < 0xF0 then 3
  else if b < 0xF8 then 4
  else 0

/-- A character whose bytes are all written as escapes. -/
def uriEscape : Reader Text.Bytes := do
  let b ← uriByte
  let bs ← uriBytes (lengthByLead b - 1)
  if lengthByLead b ≠ 0 && bs.all Text.isContinuation then pure (b :: bs) else fail

def uriRest : Nat → Reader Text.Bytes
  | 0 => pure []
  | n + 1 => do
    match ← peek with
    | none => pure []
    | some c =>
      if c = '%' then do
        let bs ← uriEscape
        let more ← uriRest n
        pure (bs ++ more)
      else if isUriChar c then do
        skip
        let more ← uriRest n
        pure (UInt8.ofNat c.toNat :: more)
      else pure []

def uri (fuel : Nat) : Reader String := do
  let bs ← uriRest fuel
  pure (Text.ofUtf8 bs)

def nonemptyUri (fuel : Nat) : Reader String := do
  let s ← uri fuel
  if s.isEmpty then fail else pure s

def handleChars : Reader (List Char) := do
  skip
  let cs ← run isNameChar
  if (← peek) = some '!' then do
    skip
    pure ('!' :: (cs ++ ['!']))
  else pure ('!' :: cs)

/-- Between exclamation marks stands the name of a handle. -/
def isHandle (cs : List Char) : Bool := 1 < cs.length && cs.getLast? = some '!'

def tagBody (fuel : Nat) : Reader Token := do
  if "!<".toList.isPrefixOf (← get).rest then do
    skip
    skip
    let s ← nonemptyUri fuel
    if (← next) = '>' then pure (.tag "" s) else fail
  else do
    let cs ← handleChars
    if isHandle cs then do
      let s ← nonemptyUri fuel
      pure (.tag (String.ofList cs) s)
    else do
      let s ← uri fuel
      let suffix := String.ofList cs.tail ++ s
      pure (if suffix.isEmpty then .tag "" "!" else .tag "!" suffix)

def tag (fuel : Nat) : Reader Token := do
  let t ← tagBody fuel
  if atGap (← get).rest then pure t else fail

/-! ### Directives -/

def versionNumber : Reader Nat := do
  let ds ← run Number.isDecimalDigit
  if ds.isEmpty || 2 < ds.length then fail else pure (Number.natOfDigits 10 ds)

def version : Reader Token := do
  let _ ← run isBlank
  let major ← versionNumber
  if (← next) ≠ '.' then fail
  else do
    let minor ← versionNumber
    pure (.version major minor)

def handle (fuel : Nat) : Reader Token := do
  let _ ← run isBlank
  if (← peek) ≠ some '!' then fail
  else do
    let cs ← handleChars
    let blanks ← run isBlank
    if (cs ≠ ['!'] && !isHandle cs) || blanks.isEmpty then fail
    else do
      let s ← nonemptyUri fuel
      if atGap (← get).rest then pure (.handle (String.ofList cs) s) else fail

def directive (fuel : Nat) : Reader Token := do
  skip
  let name ← run isNameChar
  if !atGap (← get).rest then fail
  else do
    let t ←
      if name = "YAML".toList then version
      else if name = "TAG".toList then handle fuel
      else fail
    endOfLine
    pure t

end PocketBasic.Yaml
