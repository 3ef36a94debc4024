/-!
# Double precision numbers as scaled integers

A finite double is an integer times a power of two. Quotients of naturals are rounded to the nearest
double, ties to the even neighbour, in exact arithmetic.
-/

namespace PocketBasic.Number

/-- The number `mantissa * 2 ^ exponent`, negated when `negative` is set. -/
structure Scaled where
  negative : Bool
  mantissa : Nat
  exponent : Int
deriving Repr, DecidableEq

def Scaled.ofFloat? (x : Float) : Option Scaled :=
  let bits : Nat := x.toBits.toNat
  let field : Nat := bits / Nat.pow 2 52 % Nat.pow 2 11
  let fraction : Nat := bits % Nat.pow 2 52
  let negative := bits / Nat.pow 2 63 == 1
  if field = 2047 then none
  else if field = 0 then some ⟨negative, fraction, -1074⟩
  else some ⟨negative, fraction + Nat.pow 2 52, (field : Int) - 1075⟩

/-- The quotient rounded to the nearest natural, a tie to the even one. -/
def roundQuotient (num den : Nat) : Nat :=
  let q := num / den
  let r := num % den
  if den < 2 * r ∨ (2 * r = den ∧ q % 2 = 1) then q + 1 else q

/-- The exponent of the power of two at or just below `num / den`. -/
def binaryExponent (num den : Nat) : Int :=
  let e : Int := (num.log2 : Int) - (den.log2 : Int)
  if num * Nat.pow 2 (-e).toNat < den * Nat.pow 2 e.toNat then e - 1 else e

/-- Bits of the positive double nearest to `num / den`; `none` if it is beyond the finite range. -/
def nearestBits? (num den : Nat) : Option UInt64 :=
  if num = 0 then some 0
  else
    let unit := max (binaryExponent num den - 52) (-1074)
    let mantissa := roundQuotient (num * Nat.pow 2 (-unit).toNat) (den * Nat.pow 2 unit.toNat)
    let bits := (unit + 1074).toNat * Nat.pow 2 52 + mantissa
    if bits < 2047 * Nat.pow 2 52 then some bits.toUInt64 else none

def signBit (negative : Bool) : UInt64 :=
  if negative then 0x8000000000000000 else 0

/-- The double nearest to a signed quotient; `none` if it is beyond the finite range. -/
def nearest? (negative : Bool) (num den : Nat) : Option Float :=
  (nearestBits? num den).map fun bits => Float.ofBits (bits ||| signBit negative)

def notANumber : Float := Float.ofBits 0x7FF8000000000001

def infinity (negative : Bool) : Float := Float.ofBits (0x7FF0000000000000 ||| signBit negative)

/-- The remainder of a division truncated toward zero. It is exact and has the dividend's sign. -/
def remainder (x y : Float) : Float :=
  match Scaled.ofFloat? x, Scaled.ofFloat? y with
  | some a, some b =>
    if b.mantissa = 0 then notANumber
    else
      let e := min a.exponent b.exponent
      let whole := a.mantissa * Nat.pow 2 (a.exponent - e).toNat
      let r := whole % (b.mantissa * Nat.pow 2 (b.exponent - e).toNat)
      (nearest? a.negative (r * Nat.pow 2 e.toNat) (Nat.pow 2 (-e).toNat)).getD notANumber
  | some _, none => if y.isNaN then notANumber else x
  | none, _ => notANumber

/-- The integer that stands for a position with no integer in 64 bits. -/
def noPosition : Int := -(Nat.pow 2 63)

/-- The nearest integer, a half away from zero; `noPosition` for NaN and beyond 64 bits. -/
def toPosition (x : Float) : Int :=
  match Scaled.ofFloat? x.round with
  | none => noPosition
  | some a =>
    let n := a.mantissa * Nat.pow 2 a.exponent.toNat / Nat.pow 2 (-a.exponent).toNat
    if n < Nat.pow 2 63 then (if a.negative then -(n : Int) else n) else noPosition

end PocketBasic.Number
