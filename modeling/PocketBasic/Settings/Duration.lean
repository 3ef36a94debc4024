import PocketBasic.Number.Literal

/-!
# Lengths of time

A length of time is a 64-bit number of nanoseconds. It is written as a sequence of decimal numbers,
each with a unit, such as `1h15m30.5s`.
-/

namespace PocketBasic.Duration

def millisecond : Int := 1000000

def second : Int := 1000 * millisecond

def minute : Int := 60 * second

/-- Whole seconds in nanoseconds, within 64 bits. -/
def ofSeconds (n : Int) : Int := (n * second).bmod (Nat.pow 2 64)

def units : List (String × Nat) :=
  [("ns", 1), ("us", 1000), ("µs", 1000), ("μs", 1000), ("ms", 1000000), ("s", 1000000000),
   ("m", 60000000000), ("h", 3600000000000)]

/-- The largest magnitude of a length of time. -/
def limit : Nat := Nat.pow 2 63

/-- The digits after the point as a number and the power of ten that divides it. Digits beyond the
precision of 64 bits are dropped. -/
def fraction (ds : List Char) : Nat × Float :=
  let (f, scale, _) := ds.foldl (fun (acc : Nat × Float × Bool) c =>
    let (x, scale, full) := acc
    if full then acc
    else if (limit - 1) / 10 < x then (x, scale, true)
    else
      let y := x * 10 + Number.digitValue c
      if limit < y then (x, scale, true) else (y, scale * 10, false)) (0, 1, false)
  (f, scale)

def term? (whole frac : List Char) (unit : Nat) : Option Nat :=
  let v := Number.natOfDigits 10 whole
  if limit < v ∨ limit / unit < v then none
  else
    let (f, scale) := fraction frac
    let extra := if f = 0 then 0 else (f.toFloat * (unit.toFloat / scale)).toUInt64.toNat
    let total := v * unit + extra
    if limit < total then none else some total

def isNumberChar (c : Char) : Bool := Number.isDecimalDigit c || c = '.'

/-- The sum of the terms. Each round takes at least one character. -/
def terms? : Nat → List Char → Nat → Option Nat
  | _, [], total => some total
  | 0, _ :: _, _ => none
  | fuel + 1, cs, total =>
    let whole := cs.takeWhile Number.isDecimalDigit
    let afterWhole := cs.dropWhile Number.isDecimalDigit
    let (frac, afterNumber) := match afterWhole with
      | '.' :: rest => (rest.takeWhile Number.isDecimalDigit, rest.dropWhile Number.isDecimalDigit)
      | rest => ([], rest)
    if whole.isEmpty && frac.isEmpty then none
    else
      let unit := afterNumber.takeWhile (!isNumberChar ·)
      let rest := afterNumber.dropWhile (!isNumberChar ·)
      match units.lookup (String.ofList unit) with
      | none => none
      | some u => match term? whole frac u with
        | none => none
        | some v =>
          let sum := (total + v) % Nat.pow 2 64
          if limit < sum then none else terms? fuel rest sum

def read? (s : String) : Option Int :=
  let (negative, cs) := match s.toList with
    | '-' :: cs => (true, cs)
    | '+' :: cs => (false, cs)
    | cs => (false, cs)
  if cs = ['0'] then some 0
  else if cs.isEmpty then none
  else match terms? cs.length cs 0 with
    | none => none
    | some n =>
      if negative then some (-(n : Int))
      else if n < limit then some n
      else none

end PocketBasic.Duration
