import PocketBasic.Document.Toml.Basic

/-!
# What a document has named so far

A key is given a value once, and a table is opened by a header once. The outline of a document holds
the names that have been used, by their full paths, and refuses a line that uses one of them in a
way that does not fit.
-/

namespace PocketBasic.Toml

inductive NameKind where
  | value
  | table
  /-- An array whose elements are opened by headers. -/
  | elements
deriving DecidableEq, Repr

structure Mark where
  kind : NameKind
  /-- No line may open the table again or add to it by a dotted key. -/
  closed : Bool := false
  /-- The name was first used by a pair of the table that is still open. -/
  byPair : Bool := false
deriving DecidableEq, Repr

structure Outline where
  marks : List (Key × Mark) := []
  /-- The table that pairs are added to. -/
  current : Key := []

namespace Outline

def find? (o : Outline) (path : Key) : Option Mark := o.marks.lookup path

def put (o : Outline) (path : Key) (m : Mark) : Outline :=
  { o with marks := (path, m) :: o.marks.filter (·.1 != path) }

def isBelow (path : Key) (other : Key) : Bool := path.isPrefixOf other && other != path

def clear (o : Outline) (path : Key) : Outline :=
  { o with marks := o.marks.filter fun e => !isBelow path e.1 }

/-- Closes the tables that pairs of the current table have named. -/
def leave (o : Outline) : Outline :=
  { o with
    marks := o.marks.map fun (path, m) =>
      if m.byPair && isBelow o.current path then (path, { m with closed := true, byPair := false })
      else (path, m) }

/-- The proper parts of a key that come before its end, shortest first. -/
def ancestors (key : Key) : List Key :=
  (List.range (key.length - 1)).map fun i => key.take (i + 1)

/-- Names a table on the way to the one that a header opens. -/
def pass? (o : Outline) (path : Key) : Option Outline :=
  match o.find? path with
  | none => some (o.put path { kind := .table })
  | some m => if m.kind = .value then none else some o

def openTable? (o : Outline) (key : Key) : Option Outline := do
  let o ← (ancestors key).foldlM pass? o.leave
  match o.find? key with
  | none => some { o.put key { kind := .table, closed := true } with current := key }
  | some m =>
    if m.kind = .table ∧ !m.closed then
      some { o.put key { m with closed := true } with current := key }
    else none

def openElement? (o : Outline) (key : Key) : Option Outline := do
  let o ← (ancestors key).foldlM pass? o.leave
  match o.find? key with
  | none => some { o.put key { kind := .elements, closed := true } with current := key }
  | some m => if m.kind = .elements then some { o.clear key with current := key } else none

/-- Names a table on the way to the value of a dotted key. -/
def reach? (o : Outline) (path : Key) : Option Outline :=
  match o.find? (o.current ++ path) with
  | none => some (o.put (o.current ++ path) { kind := .table, byPair := true })
  | some m => if m.kind = .table ∧ !m.closed then some o else none

def addKey? (o : Outline) (key : Key) : Option Outline := do
  let o ← (ancestors key).foldlM reach? o
  match o.find? (o.current ++ key) with
  | none => some (o.put (o.current ++ key) { kind := .value, byPair := true })
  | some _ => none

end Outline

mutual

/-- The tables written inside a value name each of their keys once. -/
def Value.hasDistinctKeys : Value → Bool
  | .array items => haveDistinctKeys items
  | .table pairs => pairsDistinct {} pairs
  | _ => true

def haveDistinctKeys : List Value → Bool
  | [] => true
  | v :: vs => v.hasDistinctKeys && haveDistinctKeys vs

def pairsDistinct (o : Outline) : List (Key × Value) → Bool
  | [] => true
  | (key, v) :: rest =>
    v.hasDistinctKeys && match o.addKey? key with
      | some o' => pairsDistinct o' rest
      | none => false

end

def Outline.addPair? (o : Outline) (key : Key) (v : Value) : Option Outline :=
  if v.hasDistinctKeys then o.addKey? key else none

end PocketBasic.Toml
