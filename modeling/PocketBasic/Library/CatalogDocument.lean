import PocketBasic.Document.Yaml.Meaning
import PocketBasic.Document.Yaml.Reader
import PocketBasic.Library.Catalog

/-!
# The entries of a catalog document

A catalog is a mapping in YAML with the one field `programs`, a list of mappings with the fields `name`,
`description` and `source` and no others.
-/

namespace PocketBasic.Library.Catalog

open Yaml (Node)

/-! ### Counting nodes -/

/-- How many nodes have been read, and how many of them through references. -/
structure Tally where
  nodes : Nat := 0
  referred : Nat := 0

namespace Tally

/-- The share of nodes that may be read through references, in parts of 360000000: 99 percent, and
less from 400000 nodes on, down to 10 percent. -/
def share (nodes : Nat) : Nat :=
  if nodes ≤ 400000 then 99 * 3600000
  else if 4000000 ≤ nodes then 10 * 3600000
  else 99 * 3600000 - 89 * (nodes - 400000)

/-- The document grows too much by its references. -/
def isExcessive (t : Tally) : Bool :=
  100 < t.referred && 1000 < t.nodes && t.nodes * share t.nodes < t.referred * 360000000

end Tally

abbrev Reading := StateT Tally Option

def fail {α : Type} : Reading α := fun _ => none

/-- Counts a node; `referred` tells whether it is read through a reference. -/
def count (referred : Bool) : Reading Unit := fun t =>
  let t : Tally := ⟨t.nodes + 1, t.referred + if referred then 1 else 0⟩
  if t.isExcessive then none else some ((), t)

/-- Reads a node, or the node that it refers to. -/
def visit {α : Type} (referred : Bool) (n : Node) (read : Bool → Node → Reading α) :
    Reading α := do
  count referred
  match n with
  | .reference _ n => do
    count true
    read true n
  | n => read referred n

/-! ### Fields -/

def value (_ : Bool) (n : Node) : Reading Yaml.Value := fun t =>
  n.value?.map fun v => (v, t)

/-- The fields that have been found, with what they hold. -/
abbrev Fields (α : Type) := List (String × α)

/-- The fields that may occur, and how what they hold is read. -/
structure Shape (α : Type) where
  names : List String
  read : Bool → Node → Reading α

/-- Adds the fields that are written in a mapping. A key that is null counts for nothing. Only a
merged mapping may name a field that has been found; it is then passed over. -/
def addFields {α : Type} (shape : Shape α) (merged referred : Bool) :
    Fields α → List (Node × Node) → Reading (Fields α)
  | found, [] => pure found
  | found, (key, node) :: pairs =>
    if key.isMergeKey then addFields shape merged referred found pairs
    else do
      match ← visit referred key value with
      | .null => addFields shape merged referred found pairs
      | v =>
        let name := v.asText
        if (found.lookup name).isSome then
          if merged then addFields shape merged referred found pairs else fail
        else if shape.names.contains name then do
          let a ← visit referred node shape.read
          addFields shape merged referred (found ++ [(name, a)]) pairs
        else fail

/-- The nodes that a merge key brings in, in order. -/
def sources : Node → List Node
  | .sequence items => items
  | n => [n]

/-- Adds the fields of a mapping, and then those of the mappings that are merged into it. -/
def addMapping {α : Type} (shape : Shape α) :
    Nat → Bool → Fields α → Bool → Node → Reading (Fields α)
  | n + 1, merged, found, referred, .mapping pairs =>
    if !(pairs.map (·.1.identity)).Nodup then fail
    else do
      let found ← addFields shape merged referred found pairs
      match pairs.find? (·.1.isMergeKey) with
      | none => pure found
      | some (_, node) => do
        if !merged then
          pairs.forM fun pair => do
            let _ ← visit referred pair.1 value
        (sources node).foldlM
          (fun found source => visit referred source (addMapping shape n true found)) found
  | _, _, _, _, _ => fail

def fields {α : Type} (shape : Shape α) (fuel : Nat) (referred : Bool) (n : Node) :
    Reading (Fields α) :=
  addMapping shape fuel false [] referred n

/-! ### Entries -/

def isNull (n : Node) : Bool := n.value? matches some .null

def entry (fuel : Nat) (referred : Bool) (n : Node) : Reading (Option Entry) := do
  if isNull n then pure none
  else do
    let found ← fields ⟨["name", "description", "source"], value⟩ fuel referred n
    let field := fun name => (found.lookup name).getD .null
    pure (some ⟨(field "name").asText, (field "name").quoted, (field "description").asText,
      (field "source").asText⟩)

def entries (fuel : Nat) (referred : Bool) (n : Node) : Reading (List Entry) := do
  match n with
  | .sequence items => do
    let es ← items.mapM fun item => visit referred item (entry fuel)
    pure (es.filterMap id)
  | n => if isNull n then pure [] else fail

def catalog (fuel : Nat) (referred : Bool) (n : Node) : Reading (List Entry) := do
  if isNull n then pure []
  else do
    let found ← fields ⟨["programs"], entries fuel⟩ fuel referred n
    pure ((found.lookup "programs").getD [])

def ofNode? (fuel : Nat) (n : Node) : Option (List Entry) :=
  ((do
    count false
    visit false n (catalog fuel) : Reading (List Entry)) {}).map (·.1)

/-- Catalogs are written in YAML. A document without a node lists nothing. -/
def yaml : Reader := fun text =>
  match Yaml.parse? text with
  | none => none
  | some none => some []
  | some (some n) => ofNode? (text.length + 1) n

end PocketBasic.Library.Catalog
