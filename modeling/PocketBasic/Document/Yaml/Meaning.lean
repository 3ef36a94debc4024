import PocketBasic.Crypto.Base64
import PocketBasic.Document.Yaml.Node
import PocketBasic.Document.Yaml.Timestamp
import PocketBasic.Number.Integer
import PocketBasic.Text.Quoted

/-!
# What scalars stand for

A scalar stands for null, for its text or for bytes. A tag of the common kind is a promise: the text
has to be of that kind.
-/

namespace PocketBasic.Yaml

inductive Value where
  | null
  | text (s : String)
  | bytes (bs : Text.Bytes)

namespace Value

/-- The value as text; null is empty. -/
def asText : Value → String
  | .null => ""
  | .text s => s
  | .bytes bs => Text.ofUtf8 bs

def quoted : Value → String
  | .bytes bs => Text.quoteBytes bs
  | v => Text.quote v.asText

end Value

def nullTexts : List String := ["", "~", "null", "Null", "NULL"]

def truthTexts : List String := ["true", "True", "TRUE", "false", "False", "FALSE"]

/-- What the names of the common tags start with. -/
def commonTag : List Char := "tag:yaml.org,2002:".toList

/-- A tag with the common start of its name written as two exclamation marks. -/
def shortTag (tag : String) : String :=
  if commonTag.isPrefixOf tag.toList then
    String.ofList ('!' :: '!' :: tag.toList.drop commonTag.length)
  else tag

def isUntagged (tag : String) : Bool := tag = "" || tag = "!"

/-! ### Numbers -/

inductive NumberKind where
  /-- A whole number of at most 64 bits with its sign. -/
  | signed
  /-- A whole number of at most 64 bits that is too great for a sign. -/
  | unsigned
  | decimal
deriving DecidableEq

/-- The digits after the mark of a base, and the base. A leading zero is a mark too. -/
def splitBase : List Char → Nat × List Char
  | '0' :: m :: d :: ds =>
    if m.toLower = 'b' then (2, d :: ds)
    else if m.toLower = 'o' then (8, d :: ds)
    else if m.toLower = 'x' then (16, d :: ds)
    else (8, m :: d :: ds)
  | '0' :: ds => (8, ds)
  | ds => (10, ds)

def isDigitOf (base : Nat) (c : Char) : Bool := Number.isHexDigit c && Number.digitValue c < base

def natural? (base : Nat) (ds : List Char) : Option Nat :=
  if ds.all (isDigitOf base) then some (Number.natOfDigits base ds) else none

def splitSign : List Char → Option Bool × List Char
  | '-' :: cs => (some true, cs)
  | '+' :: cs => (some false, cs)
  | cs => (none, cs)

def wholeKind? (sign : Option Bool) (n : Nat) : Option NumberKind :=
  let value : Int := if sign = some true then -(n : Int) else n
  if (Number.inRange? value).isSome then some .signed
  else if sign = none && n < Nat.pow 2 64 then some .unsigned
  else none

def integer? (cs : List Char) : Option NumberKind := do
  let (sign, cs) := splitSign cs
  if cs.isEmpty then none
  else
    let (base, ds) := splitBase cs
    let n ← natural? base ds
    wholeKind? sign n

def lateSigned? : List Char → Option NumberKind
  | '0' :: m :: cs => do
    let base ← if m = 'b' then some 2 else if m = 'o' then some 8 else none
    let (sign, ds) := splitSign cs
    if sign.isNone || ds.isEmpty then none
    else
      let n ← natural? base ds
      let kind ← wholeKind? sign n
      if kind = .signed then some kind else none
  | _ => none

/-- Decimal digits with an optional sign, at most one point and an optional exponent. -/
def isDecimal (cs : List Char) : Bool :=
  let (_, cs) := splitSign cs
  let whole := cs.takeWhile Number.isDecimalDigit
  let (fraction, rest) := match cs.drop whole.length with
    | '.' :: ds => (ds.takeWhile Number.isDecimalDigit, ds.dropWhile Number.isDecimalDigit)
    | rest => ([], rest)
  let exponent := match rest with
    | [] => true
    | c :: es =>
      let (_, ds) := splitSign es
      (c = 'e' || c = 'E') && !ds.isEmpty && ds.all Number.isDecimalDigit
  !(whole.isEmpty && fraction.isEmpty) && exponent

def specialNumbers : List String :=
  [".nan", ".NaN", ".NAN", ".inf", ".Inf", ".INF", "+.inf", "+.Inf", "+.INF", "-.inf", "-.Inf",
    "-.INF"]

def numberKind? (s : String) : Option NumberKind :=
  if specialNumbers.contains s then some .decimal
  else match s.toList with
    | [] => none
    | c :: cs =>
      if c = '.' then (Number.read? s).map fun _ => .decimal
      else if Number.isDecimalDigit c || c = '+' || c = '-' then
        let ds := (c :: cs).filter (· ≠ '_')
        match integer? ds with
        | some kind => some kind
        | none =>
          if isDecimal ds && (Number.read? (String.ofList ds)).isSome then some .decimal
          else lateSigned? ds
      else none

/-! ### Scalars -/

/-- What a scalar stands for, if its text is of the kind that its tag promises. -/
def value? (tag : String) (plain : Bool) (s : String) : Option Value :=
  let promised := fun (ok : Bool) => if ok then some (Value.text s) else none
  if isUntagged tag then some (if plain && nullTexts.contains s then .null else .text s)
  else match shortTag tag with
    | "!!null" => if nullTexts.contains s then some .null else none
    | "!!bool" => promised (truthTexts.contains s)
    | "!!int" => promised ([some .signed, some .unsigned].contains (numberKind? s))
    | "!!float" => promised ([some .signed, some .decimal].contains (numberKind? s))
    | "!!timestamp" => promised (isTimestamp s.toList)
    | "!!binary" => (Crypto.standardAlphabet.decodePadded? s.toList).map .bytes
    | _ => some (.text s)

namespace Node

/-- A key that brings in the pairs of other mappings. -/
def isMergeKey : Node → Bool
  | .scalar tag plain s => s = "<<" && if isUntagged tag then plain else shortTag tag = "!!merge"
  | _ => false

def value? (n : Node) : Option Value :=
  match n.target with
  | .scalar tag plain s => Yaml.value? tag plain s
  | _ => none

end Node

end PocketBasic.Yaml
