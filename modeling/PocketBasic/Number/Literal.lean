import PocketBasic.Number.Binary64

/-!
# Reading a number

A number is an optional sign and decimal digits with at most one point and an optional exponent, or
`0x` with hexadecimal digits and a binary exponent, or a name of infinity or NaN. Single underscores
may stand between digits. A finite number beyond the range of doubles is refused.
-/

namespace PocketBasic.Number

def isDecimalDigit (c : Char) : Bool := '0' ≤ c && c ≤ '9'

def isHexDigit (c : Char) : Bool :=
  isDecimalDigit c || ('a' ≤ c && c ≤ 'f') || ('A' ≤ c && c ≤ 'F')

def digitValue (c : Char) : Nat :=
  if isDecimalDigit c then c.toNat - 48
  else if 'a' ≤ c && c ≤ 'f' then c.toNat - 87
  else c.toNat - 55

def natOfDigits (base : Nat) (cs : List Char) : Nat :=
  cs.foldl (fun n c => n * base + digitValue c) 0

/-- What stood before an underscore or a digit. -/
inductive Before where
  | start
  | digit
  | underscore
  | other
deriving DecidableEq

/-- Every underscore follows a digit and is followed by one. -/
def separatesDigits (isDigit : Char → Bool) : Before → List Char → Bool
  | before, [] => before != .underscore
  | before, c :: cs =>
    if isDigit c then separatesDigits isDigit .digit cs
    else if c = '_' then before = .digit && separatesDigits isDigit .underscore cs
    else before != .underscore && separatesDigits isDigit .other cs

/-- Underscores are well placed; the mark of a base counts as a digit before them. -/
def underscoresOk (cs : List Char) : Bool :=
  match cs with
  | '0' :: b :: rest =>
    if b.toLower = 'x' then separatesDigits isHexDigit .digit rest
    else if b.toLower = 'b' || b.toLower = 'o' then separatesDigits isDecimalDigit .digit rest
    else separatesDigits isDecimalDigit .start cs
  | _ => separatesDigits isDecimalDigit .start cs

/-- The digits around the point, the exponent and what follows them. -/
structure Mantissa where
  whole : List Char
  fraction : List Char
  rest : List Char

def Mantissa.split (isDigit : Char → Bool) (cs : List Char) : Mantissa :=
  let p := fun c => isDigit c || c = '_'
  let clean := List.filter isDigit
  match cs.dropWhile p with
  | '.' :: after => ⟨clean (cs.takeWhile p), clean (after.takeWhile p), after.dropWhile p⟩
  | rest => ⟨clean (cs.takeWhile p), [], rest⟩

/-- The value of exponent digits. It stops growing once it is far out of range. -/
def exponentValue (cs : List Char) : Nat :=
  cs.foldl (fun e c => if c = '_' then e else if e < 10000 then e * 10 + digitValue c else e) 0

/-- A signed exponent after its mark, up to the end of the text. -/
def readExponent? (cs : List Char) : Option Int :=
  let (negative, digits) := match cs with
    | '-' :: ds => (true, ds)
    | '+' :: ds => (false, ds)
    | ds => (false, ds)
  match digits with
  | d :: _ =>
    if isDecimalDigit d && digits.all (fun c => isDecimalDigit c || c = '_') then
      let e : Int := exponentValue digits
      some (if negative then -e else e)
    else none
  | [] => none

/-- The double nearest to `digits * 10 ^ e`. -/
def ofDecimal? (negative : Bool) (digits : List Char) (e : Int) : Option Float :=
  let m := natOfDigits 10 digits
  if m = 0 then nearest? negative 0 1
  else if 400 < e then none
  else if e + digits.length < -400 then nearest? negative 0 1
  else nearest? negative (m * Nat.pow 10 e.toNat) (Nat.pow 10 (-e).toNat)

def ofHexadecimal? (negative : Bool) (digits : List Char) (e : Int) : Option Float :=
  let m := natOfDigits 16 digits
  if m = 0 then nearest? negative 0 1
  else if 1100 < e then none
  else if e + 4 * digits.length < -1200 then nearest? negative 0 1
  else nearest? negative (m * Nat.pow 2 e.toNat) (Nat.pow 2 (-e).toNat)

def readDecimal? (negative : Bool) (cs : List Char) : Option Float :=
  let m := Mantissa.split isDecimalDigit cs
  let digits := m.whole ++ m.fraction
  let places : Int := m.fraction.length
  if digits.isEmpty then none
  else match m.rest with
    | [] => ofDecimal? negative digits (-places)
    | c :: rest =>
      if c = 'e' || c = 'E' then
        (readExponent? rest).bind fun e => ofDecimal? negative digits (e - places)
      else none

def readHexadecimal? (negative : Bool) (cs : List Char) : Option Float :=
  let m := Mantissa.split isHexDigit cs
  let digits := m.whole ++ m.fraction
  if digits.isEmpty then none
  else match m.rest with
    | c :: rest =>
      if c = 'p' || c = 'P' then
        (readExponent? rest).bind fun e =>
          ofHexadecimal? negative digits (e - 4 * m.fraction.length)
      else none
    | [] => none

def readUnsigned? (negative : Bool) (cs : List Char) : Option Float :=
  if cs.contains '_' && !underscoresOk cs then none
  else match cs with
    | '0' :: 'x' :: rest => readHexadecimal? negative rest
    | '0' :: 'X' :: rest => readHexadecimal? negative rest
    | _ => readDecimal? negative cs

def infinityNames : List (List Char) := ["inf".toList, "infinity".toList]

def readSigned? (negative : Bool) (cs : List Char) : Option Float :=
  if infinityNames.contains (cs.map Char.toLower) then some (infinity negative)
  else readUnsigned? negative cs

/-- The number that a text spells, if it spells one. -/
def read? (s : String) : Option Float :=
  match s.toList with
  | '+' :: cs => readSigned? false cs
  | '-' :: cs => readSigned? true cs
  | cs => if cs.map Char.toLower = "nan".toList then some notANumber else readSigned? false cs

end PocketBasic.Number
