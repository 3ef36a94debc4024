/-!
# YAML nodes

The nodes of a YAML document. A scalar remembers its tag and whether it was written plainly, since
its meaning depends on them.
-/

namespace PocketBasic.Yaml

inductive Node where
  /-- A scalar. Its tag is empty if it has none. -/
  | scalar (tag : String) (plain : Bool) (text : String)
  | sequence (items : List Node)
  | mapping (pairs : List (Node × Node))
  /-- A node that is named here and written elsewhere. -/
  | reference (name : String) (node : Node)
  /-- The node that a reference inside of it stands for. -/
  | unfinished

namespace Node

/-- The node of a place where nothing is written. -/
def empty : Node := .scalar "" true ""

/-- The node that a reference stands for. -/
def target : Node → Node
  | .reference _ n => n
  | n => n

/-- What two keys of one mapping may not share, whatever their meaning. -/
inductive Identity where
  | scalar (text : String)
  | sequence
  | mapping
  | reference (name : String)
deriving DecidableEq

def identity : Node → Identity
  | .scalar _ _ s => .scalar s
  | .sequence _ => .sequence
  | .mapping _ => .mapping
  | .reference name _ => .reference name
  | .unfinished => .mapping

end Node

end PocketBasic.Yaml
