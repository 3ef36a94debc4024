import PocketBasic.Number.Binary64

/-!
# The fewest digits that read back

The digits of a finite double: of all decimals that round to it, one with the fewest significant
digits, of those the nearest, and of two equally near the even one. Two layouts are built from them,
positional and with an exponent.
-/

namespace PocketBasic.Number

/-- The positive decimal `digits * 10 ^ exponent`. -/
structure Digits where
  digits : Nat
  exponent : Int
deriving Repr, DecidableEq

/-- The positive reals that round to a double, as multiples of `num / den`. -/
structure Interval where
  low : Nat
  value : Nat
  high : Nat
  closed : Bool
  num : Nat
  den : Nat

/-- The ends lie halfway to the neighbours and belong to it if the mantissa is even. The lower
neighbour of a power of two is only half as far away. -/
def Interval.ofScaled (a : Scaled) : Interval :=
  let m := a.mantissa
  let narrow := m = Nat.pow 2 52 ∧ -1074 < a.exponent
  { low := if narrow then 4 * m - 1 else 4 * m - 2
    value := 4 * m
    high := 4 * m + 2
    closed := m % 2 == 0
    num := Nat.pow 2 (a.exponent - 2).toNat
    den := Nat.pow 2 (2 - a.exponent).toNat }

/-- Whether `d * num / den` is in the interval. -/
def Interval.contains (i : Interval) (d num den : Nat) : Bool :=
  let x := d * num * i.den
  let low := i.low * i.num * den
  let high := i.high * i.num * den
  if i.closed then low ≤ x && x ≤ high else low < x && x < high

/-- How many digits stand before the point; zero or negative for a number below one tenth. -/
def pointPosition (num den : Nat) : Int :=
  if den ≤ num then (Nat.toDigits 10 (num / den)).length
  else 1 - ((Nat.toDigits 10 (den / num)).length : Int)

/-- The nearest count of units in `n`. A half goes to the even neighbour. -/
def nearestMultiple (n unit : Nat) : Nat :=
  let below := n / unit
  let excess := n % unit
  if 2 * excess < unit ∨ (2 * excess = unit ∧ below % 2 = 0) then below else below + 1

/-- The better of the two neighbours of the value on the grid of multiples of `num / den`. -/
def Interval.onGrid? (i : Interval) (num den : Nat) : Option Nat :=
  let exact := i.value * i.num * den
  let unit := num * i.den
  let below := exact / unit
  match i.contains below num den, i.contains (below + 1) num den with
  | true, true => some (nearestMultiple exact unit)
  | true, false => some below
  | false, true => some (below + 1)
  | false, false => none

/-- Tries the grids of more and more digits. -/
def Interval.search (i : Interval) (point : Int) : Nat → Nat → Digits
  | 0, n => ⟨i.value * i.num / i.den, point - n⟩
  | fuel + 1, n =>
    let e := point - n
    match i.onGrid? (Nat.pow 10 e.toNat) (Nat.pow 10 (-e).toNat) with
    | some d => ⟨d, e⟩
    | none => i.search point fuel (n + 1)

/-- Moves trailing zeros into the exponent. -/
def Digits.normalize (d : Digits) : Nat → Digits
  | 0 => d
  | fuel + 1 =>
    if d.digits % 10 = 0 ∧ d.digits ≠ 0 then
      Digits.normalize ⟨d.digits / 10, d.exponent + 1⟩ fuel
    else d

/-- The shortest digits of a nonzero finite double. Seventeen always suffice. -/
def shortest (a : Scaled) : Digits :=
  let i := Interval.ofScaled a
  (i.search (pointPosition (i.value * i.num) i.den) 17 1).normalize 20

def digitChars (n : Nat) : List Char := Nat.toDigits 10 n

/-- All digits written out, with a point only before a fraction. -/
def Digits.positional (d : Digits) : List Char :=
  let cs := digitChars d.digits
  if 0 ≤ d.exponent then cs ++ List.replicate d.exponent.toNat '0'
  else
    let places := (-d.exponent).toNat
    if places < cs.length then
      cs.take (cs.length - places) ++ '.' :: cs.drop (cs.length - places)
    else '0' :: '.' :: (List.replicate (places - cs.length) '0' ++ cs)

def Digits.scientific (d : Digits) : List Char :=
  let cs := digitChars d.digits
  let e := d.exponent + cs.length - 1
  let mark := digitChars e.natAbs
  let head := match cs with
    | [] => []
    | [c] => [c]
    | c :: rest => c :: '.' :: rest
  head ++ 'e' :: (if e < 0 then '-' else '+') ::
    (if mark.length < 2 then '0' :: mark else mark)

def signed (negative : Bool) (cs : List Char) : String :=
  String.ofList (if negative then '-' :: cs else cs)

def positionalText (x : Float) : String :=
  match Scaled.ofFloat? x with
  | none => ""
  | some a => if a.mantissa = 0 then signed a.negative ['0']
    else signed a.negative (shortest a).positional

/-- How the calculator shows a number: positional from `1e-6` up to `1e21`, with an exponent
outside, and no sign on zero. -/
def render (x : Float) : String :=
  match Scaled.ofFloat? x with
  | none =>
    if x.isNaN then "NaN" else if x < 0 then "-Infinity" else "Infinity"
  | some a =>
    if a.mantissa = 0 then "0"
    else if x.abs ≥ 1e21 || x.abs < 1e-6 then signed a.negative (shortest a).scientific
    else signed a.negative (shortest a).positional

end PocketBasic.Number
