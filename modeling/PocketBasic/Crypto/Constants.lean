/-!
# Numbers nobody chose

Hash functions take their constants from the fractional parts of roots of primes, ciphers theirs
from the digits of π. Both are computed here in whole numbers.
-/

namespace PocketBasic.Crypto

/-- The greatest number below `2 ^ bits` whose power of exponent `k` is at most `n`. -/
def floorRoot (k n : Nat) : Nat → Nat
  | 0 => 0
  | bits + 1 =>
    (List.range (bits + 1)).foldr
      (fun i r => if Nat.pow (r + Nat.pow 2 i) k ≤ n then r + Nat.pow 2 i else r) 0

/-- The first `bits` binary digits of the fraction of the root of `p` with exponent `k`. -/
def rootFraction (k bits p : Nat) : Nat :=
  floorRoot k (p * Nat.pow 2 (k * bits)) (bits + 16) % Nat.pow 2 bits

def isPrime (n : Nat) : Bool := 1 < n && (List.range n).all fun d => d < 2 || n % d ≠ 0

def primesBelow (n : Nat) : List Nat := (List.range n).filter isPrime

/-- The arc tangent of `1 / x` times `scale`, from the terms of its series from `i` on. `power` is
`scale` over the power of `x` that the next term has. -/
def arctanTerms (x : Nat) : Nat → Nat → Nat → Bool → Int → Int
  | 0, _, _, _, sum => sum
  | fuel + 1, i, power, plus, sum =>
    if power = 0 then sum
    else
      let term : Int := (power / i : Nat)
      arctanTerms x fuel (i + 2) (power / (x * x)) (!plus) (if plus then sum + term else sum - term)

def arctanInverse (x scale : Nat) : Int :=
  arctanTerms x (Nat.log2 scale + 1) 1 (scale / x) true 0

/-- The first `bits` binary digits of the fraction of π, from sixteen times the arc tangent of one
fifth less four times that of one 239th. -/
def piFraction (bits : Nat) : Nat :=
  let guard := 64
  let scale := Nat.pow 2 (bits + guard)
  let pi := 16 * arctanInverse 5 scale - 4 * arctanInverse 239 scale
  (pi.toNat / Nat.pow 2 guard) % Nat.pow 2 bits

end PocketBasic.Crypto
