import PocketBasic.Number.Literal
import PocketBasic.Text.Lines

/-!
# Network addresses

Hosts with ports, and numeric addresses of both lengths. A long address that stands for a short one
is written as the short one.
-/

namespace PocketBasic.Web

/-! ### Hosts and ports -/

def cutLast? (sep : Char) (cs : List Char) : Option (List Char × List Char) :=
  (Text.cut? sep cs.reverse).map fun (a, b) => (b.reverse, a.reverse)

/-- The host of a text that consists of a host and a port. A host with colons stands in brackets. -/
def hostOfPair? (cs : List Char) : Option (List Char) :=
  match cutLast? ':' cs with
  | none => none
  | some (host, port) =>
    if port.contains '[' || port.contains ']' then none
    else match host with
      | '[' :: inner =>
        if inner.getLast? = some ']' && !inner.dropLast.contains ']' && !inner.contains '[' then
          some inner.dropLast
        else none
      | _ => if host.contains ':' || host.contains '[' || host.contains ']' then none else some host

def stripPort (host : String) : String :=
  match hostOfPair? host.toList with
  | some h => String.ofList h
  | none => host

/-! ### Numeric addresses -/

inductive NumericAddress where
  | short (bytes : List Nat)
  | long (groups : List Nat)
deriving DecidableEq, Repr

namespace NumericAddress

/-- A decimal number below 256 without zeros in front. -/
def byte? (cs : List Char) : Option Nat :=
  if cs.isEmpty || 3 < cs.length || !cs.all Number.isDecimalDigit ||
      (1 < cs.length && cs.head? = some '0') then none
  else
    let n := Number.natOfDigits 10 cs
    if n < 256 then some n else none

def short? (cs : List Char) : Option (List Nat) :=
  let parts := Text.splitAt '.' cs
  if parts.length = 4 then parts.mapM byte? else none

def group? (cs : List Char) : Option Nat :=
  if cs.isEmpty || 4 < cs.length || !cs.all Number.isHexDigit then none
  else some (Number.natOfDigits 16 cs)

/-- Groups between colons. The last one may be a short address, which makes two groups. -/
def groups? : List (List Char) → Option (List Nat)
  | [] => some []
  | [last] => match group? last with
    | some g => some [g]
    | none => match short? last with
      | some [a, b, c, d] => some [a * 256 + b, c * 256 + d]
      | _ => none
  | g :: rest => do
    let x ← group? g
    let more ← groups? rest
    pure (x :: more)

/-- The groups on one side of a double colon. -/
def side? (cs : List Char) : Option (List Nat) :=
  if cs.isEmpty then some [] else groups? (Text.splitAt ':' cs)

def cutDouble? : List Char → Option (List Char × List Char)
  | ':' :: ':' :: rest => some ([], rest)
  | c :: rest => (cutDouble? rest).map fun (a, b) => (c :: a, b)
  | [] => none

def long? (cs : List Char) : Option (List Nat) :=
  match cutDouble? cs with
  | none => do
    let gs ← groups? (Text.splitAt ':' cs)
    if gs.length = 8 then some gs else none
  | some (left, right) => do
    if left.contains '.' then none
    let l ← side? left
    let r ← side? right
    if l.length + r.length < 8 then
      some (l ++ List.replicate (8 - l.length - r.length) 0 ++ r)
    else none

def ofText? (s : String) : Option NumericAddress :=
  match short? s.toList with
  | some bytes => some (.short bytes)
  | none => (long? s.toList).map fun gs => match gs with
    | [0, 0, 0, 0, 0, 0xFFFF, a, b] => .short [a / 256, a % 256, b / 256, b % 256]
    | gs => .long gs

def zeroRun (gs : List Nat) : Nat := (gs.takeWhile (· = 0)).length

/-- The length and the place of the first longest run of zeros. -/
def longestRun (i : Nat) : List Nat → Nat × Nat
  | [] => (0, i)
  | g :: gs =>
    let here := zeroRun (g :: gs)
    let later := longestRun (i + 1) gs
    if later.1 ≤ here then (here, i) else later

def joinGroups (gs : List Nat) : String :=
  ":".intercalate (gs.map fun g => String.ofList (Nat.toDigits 16 g))

/-- The address in its usual form, where two colons stand for the longest run of zeros. -/
def text : NumericAddress → String
  | .short bytes => ".".intercalate (bytes.map toString)
  | .long gs =>
    let (n, i) := longestRun 0 gs
    if n < 2 then joinGroups gs
    else joinGroups (gs.take i) ++ "::" ++ joinGroups (gs.drop (i + n))

end NumericAddress

end PocketBasic.Web
