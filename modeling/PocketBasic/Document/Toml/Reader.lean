import PocketBasic.Document.Toml.Basic
import PocketBasic.Number.Literal
import PocketBasic.Text.Scanner

/-!
# Reading a TOML document

The lines of a document. A number is read as far as its characters go and is not judged here.
-/

namespace PocketBasic.Toml

open Text Text.Scanner

def isSpace (c : Char) : Bool := c = ' ' || c = '\t'

def isControl (c : Char) : Bool := (c.toNat < 32 && c ≠ '\t') || c.toNat = 127

def spaces : Scanner Unit := do
  let _ ← run isSpace

def newline : Scanner Unit := do
  match ← next with
  | '\n' => pure ()
  | '\r' => char '\n'
  | _ => fail

def comment : Scanner Unit := do
  if (← peek) = some '#' then
    let _ ← run fun c => !isControl c

/-- The end of a line that holds nothing more. -/
def endOfLine : Scanner Unit := do
  spaces
  comment
  if ← atEnd then pure () else newline

/-- Spaces, comments and line ends, as between the items of an array. -/
def filler : Nat → Scanner Unit
  | 0 => pure ()
  | n + 1 => do
    spaces
    comment
    match ← peek with
    | some '\n' => do newline; filler n
    | some '\r' => do newline; filler n
    | _ => pure ()

/-! ### Strings -/

def hexEscape (digits : Nat) : Scanner Char := do
  let cs ← rest
  let ds := cs.take digits
  skip digits
  let n := Number.natOfDigits 16 ds
  if ds.length = digits && ds.all Number.isHexDigit && n.isValidChar then pure (Char.ofNat n)
  else fail

def escapeChar : Scanner Char := do
  match ← next with
  | 'b' => pure '\x08'
  | 't' => pure '\t'
  | 'n' => pure '\n'
  | 'f' => pure '\x0c'
  | 'r' => pure '\r'
  | 'e' => pure '\x1b'
  | '"' => pure '"'
  | '\\' => pure '\\'
  | 'u' => hexEscape 4
  | 'U' => hexEscape 8
  | _ => fail

def apostrophe : Char := Char.ofNat 39

def basicRest : Nat → Scanner (List Char)
  | 0 => fail
  | n + 1 => do
    match ← next with
    | '"' => pure []
    | '\\' => do
      let c ← escapeChar
      let cs ← basicRest n
      pure (c :: cs)
    | c => if isControl c then fail else do
      let cs ← basicRest n
      pure (c :: cs)

def literalRest : Scanner (List Char) := do
  let cs ← run fun c => c ≠ apostrophe && !isControl c
  char apostrophe
  pure cs

/-- The rest of a string over several lines that ends with three quotes. Up to two more quotes
belong to the text, and a backslash hides the gap to the next line. -/
def longRest (q : Char) (escapes : Bool) : Nat → Scanner (List Char)
  | 0 => fail
  | n + 1 => do
    let mark := String.ofList [q, q, q]
    if ← startsWith mark then
      let more ← run (· = q)
      if more.length ≤ 5 then pure (more.drop 3) else fail
    else match ← next with
      | '\r' => do
        char '\n'
        let cs ← longRest q escapes n
        pure ('\r' :: '\n' :: cs)
      | '\\' =>
        if escapes then do
          let line ← rest
          match line.dropWhile isSpace with
          | '\n' :: _ | '\r' :: '\n' :: _ => do
            let _ ← run fun c => isSpace c || c = '\n' || c = '\r'
            longRest q escapes n
          | _ => do
            let c ← escapeChar
            let cs ← longRest q escapes n
            pure (c :: cs)
        else do
          let cs ← longRest q escapes n
          pure ('\\' :: cs)
      | c => if isControl c && c ≠ '\n' then fail else do
        let cs ← longRest q escapes n
        pure (c :: cs)

/-- A line end right after the opening quotes is dropped. -/
def longString (q : Char) (escapes : Bool) (n : Nat) : Scanner (List Char) := do
  match ← peek with
  | some '\n' => newline
  | some '\r' => newline
  | _ => pure ()
  longRest q escapes n

def string (n : Nat) : Scanner String := do
  let long := fun q => String.ofList [q, q, q]
  if ← startsWith (long '"') then
    skip 3
    String.ofList <$> longString '"' true n
  else if ← startsWith (long apostrophe) then
    skip 3
    String.ofList <$> longString apostrophe false n
  else if (← peek) = some '"' then
    skip 1
    String.ofList <$> basicRest n
  else
    skip 1
    String.ofList <$> literalRest

/-! ### Keys -/

def isBareKeyChar (c : Char) : Bool := c.isAlphanum || c = '_' || c = '-'

def simpleKey (n : Nat) : Scanner String := do
  match ← peek with
  | some '"' => do
    skip 1
    String.ofList <$> basicRest n
  | some c =>
    if c = apostrophe then do
      skip 1
      String.ofList <$> literalRest
    else do
      let cs ← run isBareKeyChar
      if cs.isEmpty then fail else pure (String.ofList cs)
  | none => fail

def dottedKey : Nat → Scanner Key
  | 0 => fail
  | n + 1 => do
    let k ← simpleKey (n + 1)
    spaces
    if (← peek) = some '.' then
      skip 1
      spaces
      let ks ← dottedKey n
      pure (k :: ks)
    else pure [k]

/-! ### Numbers and moments -/

def isDigit (c : Char) : Bool := Number.isDecimalDigit c

/-- The digits that may follow the mark of a base. -/
def baseDigit? : Char → Option (Char → Bool)
  | 'x' => some Number.isHexDigit
  | 'o' => some fun c => '0' ≤ c && c ≤ '7'
  | 'b' => some fun c => c = '0' || c = '1'
  | _ => none

/-- The rest of a decimal number. An infinity or a missing number ends it. -/
def decimalRest (float : Bool) : Nat → Scanner (List Char × Bool)
  | 0 => fail
  | n + 1 => do
    match ← peek with
    | none => pure ([], float)
    | some c =>
      if isDigit c || c = '+' || c = '-' || c = '_' then do
        skip 1
        let (cs, isFloat) ← decimalRest float n
        pure (c :: cs, isFloat)
      else if c = '.' || c = 'e' || c = 'E' then do
        skip 1
        let (cs, isFloat) ← decimalRest true n
        pure (c :: cs, isFloat)
      else if c = 'i' then do
        word "inf"
        pure ("inf".toList, true)
      else if c = 'n' then do
        word "nan"
        pure ("nan".toList, true)
      else pure ([], float)

def decimal (n : Nat) : Scanner Value := do
  let (cs, isFloat) ← decimalRest false n
  if cs.isEmpty then fail
  else pure (if isFloat then .float cs else .integer cs)

/-- A number. A zero before anything but a point or an exponent is a number of its own or starts a
number to another base. -/
def number (n : Nat) : Scanner Value := do
  match ← rest with
  | '0' :: mark :: _ :: _ =>
    if mark = '.' || mark = 'e' || mark = 'E' then decimal n
    else match baseDigit? mark with
      | some isBaseDigit => do
        skip 2
        let ds ← run fun c => isBaseDigit c || c = '_'
        pure (.integer ('0' :: mark :: ds))
      | none => do
        skip 1
        pure (.integer ['0'])
  | _ => decimal n

def isMomentChar (c : Char) : Bool := isDigit c || "-+:.TtZz".toList.contains c

/-- The rest of a moment. One space before a digit belongs to it, and so does what follows that
digit. -/
def momentRest (spaced : Bool) : Nat → Scanner (List Char)
  | 0 => fail
  | n + 1 => do
    let cs ← run isMomentChar
    match ← rest with
    | ' ' :: d :: more =>
      if !spaced && isDigit d then do
        let taken := ' ' :: d :: more.take 1
        skip taken.length
        let after ← momentRest true n
        pure (cs ++ taken ++ after)
      else pure cs
    | _ => pure cs

/-- A moment starts with the two digits of an hour or the four digits of a year. -/
def startsMoment (cs : List Char) : Bool :=
  let digits := (cs.take 5).takeWhile isDigit
  match digits.length, cs.drop digits.length with
  | 2, ':' :: _ => true
  | 4, '-' :: _ => true
  | _, _ => false

def scalar (n : Nat) : Scanner Value := do
  let cs ← rest
  if startsMoment cs then .moment <$> momentRest false n
  else if "true".toList.isPrefixOf cs then do
    skip 4
    pure (.bool true)
  else if "false".toList.isPrefixOf cs then do
    skip 5
    pure (.bool false)
  else number n

/-! ### Values -/

def arrayRest (item : Scanner Value) (m : Nat) : Nat → Scanner (List Value)
  | 0 => fail
  | n + 1 => do
    filler m
    if (← peek) = some ']' then
      skip 1
      pure []
    else
      let v ← item
      filler m
      match ← next with
      | ',' => do
        let vs ← arrayRest item m n
        pure (v :: vs)
      | ']' => pure [v]
      | _ => fail

def pair (item : Scanner Value) (m : Nat) : Scanner (Key × Value) := do
  let key ← dottedKey m
  char '='
  spaces
  let v ← item
  pure (key, v)

def tableRest (item : Scanner Value) (m : Nat) : Nat → Scanner (List (Key × Value))
  | 0 => fail
  | n + 1 => do
    spaces
    let p ← pair item m
    spaces
    match ← next with
    | ',' => do
      let ps ← tableRest item m n
      pure (p :: ps)
    | '\x7d' => pure [p]
    | _ => fail

def inlineTable (item : Scanner Value) (n : Nat) : Scanner Value := do
  spaces
  if (← peek) = some '\x7d' then
    skip 1
    pure (.table [])
  else .table <$> tableRest item n n

/-- A value with at most `n` levels of nesting. -/
def value (m : Nat) : Nat → Scanner Value
  | 0 => fail
  | n + 1 => do
    match ← peek with
    | none => fail
    | some '[' => do
      skip 1
      .array <$> arrayRest (value m n) m m
    | some '\x7b' => do
      skip 1
      inlineTable (value m n) m
    | some c => if c = '"' || c = apostrophe then .text <$> string m else scalar m

/-! ### Lines -/

def header (m : Nat) : Scanner Line := do
  skip 1
  let element := (← peek) = some '['
  if element then skip 1
  spaces
  let key ← dottedKey m
  char ']'
  if element then do
    char ']'
    pure (.element key)
  else pure (.table key)

def line (m : Nat) : Scanner Line := do
  if (← peek) = some '[' then header m
  else do
    let (key, v) ← pair (value m m) m
    pure (.pair key v)

def lines (m : Nat) : Nat → Scanner (List Line)
  | 0 => fail
  | n + 1 => do
    spaces
    match ← peek with
    | none => pure []
    | some c =>
      if c = '#' || c = '\n' || c = '\r' then do
        endOfLine
        lines m n
      else do
        let l ← line m
        endOfLine
        let ls ← lines m n
        pure (l :: ls)

def parse? (text : String) : Option (List Line) :=
  let cs := text.toList
  (lines (cs.length + 1) (cs.length + 1)).parse? cs

end PocketBasic.Toml
