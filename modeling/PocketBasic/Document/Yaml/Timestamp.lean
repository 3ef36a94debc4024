import PocketBasic.Number.Literal

/-!
# Dates and times

A timestamp is a date, or a date and a time of day. The time follows a `T` and ends in a zone, or
follows spaces and has no zone.
-/

namespace PocketBasic.Yaml.Timestamp

open Number (isDecimalDigit natOfDigits)

def number? : List Char → Option (Nat × List Char)
  | a :: b :: cs =>
    if !isDecimalDigit a then none
    else if isDecimalDigit b then some (natOfDigits 10 [a, b], cs)
    else some (natOfDigits 10 [a], b :: cs)
  | [a] => if isDecimalDigit a then some (natOfDigits 10 [a], []) else none
  | [] => none

def numberAfter? (c : Char) : List Char → Option (Nat × List Char)
  | d :: cs => if d = c then number? cs else none
  | [] => none

def isLeap (year : Nat) : Bool := year % 4 = 0 && (year % 100 ≠ 0 || year % 400 = 0)

def daysIn (year month : Nat) : Nat :=
  if month = 2 then (if isLeap year then 29 else 28)
  else if [4, 6, 9, 11].contains month then 30
  else 31

def afterDate? (cs : List Char) : Option (List Char) := do
  let digits := cs.takeWhile isDecimalDigit
  if digits.length ≠ 4 then none
  else
    let (month, cs) ← numberAfter? '-' (cs.drop 4)
    let (day, cs) ← numberAfter? '-' cs
    let year := natOfDigits 10 digits
    if 1 ≤ month && month ≤ 12 && 1 ≤ day && day ≤ daysIn year month then some cs else none

/-- What follows a fraction of a second, which may be missing. -/
def afterFraction : List Char → List Char
  | c :: d :: cs =>
    if (c = '.' || c = ',') && isDecimalDigit d then cs.dropWhile isDecimalDigit else c :: d :: cs
  | cs => cs

def afterTime? (cs : List Char) : Option (List Char) := do
  let (hour, cs) ← number? cs
  let (minute, cs) ← numberAfter? ':' cs
  let (second, cs) ← numberAfter? ':' cs
  if hour < 24 && minute < 60 && second < 60 then some (afterFraction cs) else none

def isZone : List Char → Bool
  | ['Z'] => true
  | [sign, a, b, ':', c, d] =>
    (sign = '+' || sign = '-') && [a, b, c, d].all isDecimalDigit &&
      natOfDigits 10 [a, b] ≤ 24 && natOfDigits 10 [c, d] ≤ 60
  | _ => false

end Timestamp

open Timestamp in
def isTimestamp (cs : List Char) : Bool :=
  match afterDate? cs with
  | none => false
  | some [] => true
  | some (c :: cs) =>
    if c = 'T' || c = 't' then (afterTime? cs).any isZone
    else if c = ' ' then (afterTime? (cs.dropWhile (· = ' '))).any (·.isEmpty)
    else false

end PocketBasic.Yaml
