import PocketBasic.Document.Toml.Basic
import PocketBasic.Number.Integer

/-!
# Whole numbers in a document

Decimal numbers have an optional sign and no leading zeros, numbers to another base have a mark.
Single underscores may stand between digits. All are within 64 bits.
-/

namespace PocketBasic.Toml

/-- The characters of a number without its underscores, each of which stands between others. -/
def withoutUnderscores? (cs : List Char) : Option (List Char) :=
  if Number.separatesDigits (· ≠ '_') .start cs then some (cs.filter (· ≠ '_')) else none

def ofBase? (base : Nat) (cs : List Char) : Option Int := do
  let ds ← withoutUnderscores? cs
  if ds.isEmpty then none else Number.inRange? (Number.natOfDigits base ds)

def hasLeadingZero : List Char → Bool
  | '0' :: _ :: _ => true
  | _ => false

def splitSign : List Char → List Char × List Char
  | '-' :: cs => (['-'], cs)
  | '+' :: cs => (['+'], cs)
  | cs => ([], cs)

def ofDecimal? (cs : List Char) : Option Int := do
  let (sign, rest) := splitSign cs
  let ds ← withoutUnderscores? rest
  if hasLeadingZero ds then none else Number.readInteger? (String.ofList (sign ++ ds))

def integerOf? : List Char → Option Int
  | '0' :: 'x' :: d :: ds => ofBase? 16 (d :: ds)
  | '0' :: 'o' :: d :: ds => ofBase? 8 (d :: ds)
  | '0' :: 'b' :: d :: ds => ofBase? 2 (d :: ds)
  | cs => ofDecimal? cs

end PocketBasic.Toml
