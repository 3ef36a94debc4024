import PocketBasic.Number.Literal

/-!
# Reading whole numbers

Decimal digits with an optional sign, within 64 bits.
-/

namespace PocketBasic.Number

def minInteger : Int := -(Nat.pow 2 63)
def maxInteger : Int := Nat.pow 2 63 - 1

def inRange? (n : Int) : Option Int :=
  if minInteger ≤ n ∧ n ≤ maxInteger then some n else none

def readNatural? (cs : List Char) : Option Nat :=
  if !cs.isEmpty && cs.all isDecimalDigit then some (natOfDigits 10 cs) else none

def readInteger? (s : String) : Option Int :=
  match s.toList with
  | '-' :: cs => (readNatural? cs).bind fun n => inRange? (-(n : Int))
  | '+' :: cs => (readNatural? cs).bind fun n => inRange? n
  | cs => (readNatural? cs).bind fun n => inRange? n

end PocketBasic.Number
