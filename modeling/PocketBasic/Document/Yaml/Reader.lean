import PocketBasic.Document.Yaml.Lexer
import PocketBasic.Document.Yaml.Node

/-!
# Reading a YAML document

The nodes are built from the tokens of a text. A node may be named by an anchor, and a reference
stands for the last node of its name before it. Only the first document of a text is read.
-/

namespace PocketBasic.Yaml

structure Composer where
  lexer : Lexer
  /-- What the handles of tags stand for. -/
  handles : List (String × String) := []
  /-- The nodes that have been given names, in the order of their starts. -/
  anchors : List (String × Node) := []

abbrev NodeReader := StateT Composer Option

def reject {α : Type} : NodeReader α := fun _ => none

def lex {α : Type} (r : Lexing α) : NodeReader α := fun s =>
  (r s.lexer).map fun (a, l) => (a, { s with lexer := l })

def ahead : NodeReader Token := lex peekToken

def pass : NodeReader Unit := do
  let _ ← lex takeToken

/-! ### Names and tags -/

/-- The node that a name stands for here. -/
def named (name : String) : NodeReader Node := do
  match (← get).anchors.reverse.lookup name with
  | some n => pure (.reference name n)
  | none => reject

/-- Reads a node that may have a name. References inside of it find it unfinished. -/
def naming (anchor : Option String) (r : NodeReader Node) : NodeReader Node := do
  match anchor with
  | none => r
  | some name => do
    let i := (← get).anchors.length
    modify fun s => { s with anchors := s.anchors ++ [(name, .unfinished)] }
    let n ← r
    modify fun s => { s with anchors := s.anchors.set i (name, n) }
    pure n

def tagOf (handle suffix : String) : NodeReader String := do
  if handle.isEmpty then pure suffix
  else match (← get).handles.lookup handle with
    | some start => pure (start ++ suffix)
    | none => reject

def anchorAhead : NodeReader (Option String) := do
  match ← ahead with
  | .anchor name => do
    pass
    pure (some name)
  | _ => pure none

def tagAhead : NodeReader (Option String) := do
  match ← ahead with
  | .tag handle suffix => do
    pass
    let t ← tagOf handle suffix
    pure (some t)
  | _ => pure none

/-- The name and the tag in front of a node, in any order. -/
def properties : NodeReader (Option String × Option String) := do
  match ← anchorAhead with
  | some name => do
    let t ← tagAhead
    pure (some name, t)
  | none => do
    let t ← tagAhead
    let name ← if t.isSome then anchorAhead else pure none
    pure (name, t)

/-! ### Nodes -/

/-- Reads a node, unless a token follows that cannot start one there. -/
def unlessAhead (ends : List Token) (r : NodeReader Node) : NodeReader Node := do
  if ends.contains (← ahead) then pure .empty else r

mutual

/-- A node. In flow style, no block collection can be one; the entries of a sequence that is the
value of a key may stand in the column of the key. -/
def node : Nat → Bool → Bool → NodeReader Node
  | 0, _, _ => reject
  | n + 1, block, afterKey => do
    match ← ahead with
    | .reference name => do
      pass
      named name
    | _ => do
      let (anchor, tag) ← properties
      naming anchor do
        match ← ahead with
        | .scalar plain text => do
          pass
          pure (.scalar (tag.getD "") plain text)
        | .sequenceStart => do
          pass
          let items ← flowItems n true
          pure (.sequence items)
        | .mappingStart => do
          pass
          let pairs ← flowPairs n true
          pure (.mapping pairs)
        | t =>
          if t = .dash && afterKey then do
            let items ← alignedItems n
            pure (.sequence items)
          else if t = .blockSequence && block then do
            pass
            let items ← blockItems n
            pure (.sequence items)
          else if t = .blockMapping && block then do
            pass
            let pairs ← blockPairs n
            pure (.mapping pairs)
          else if anchor.isSome || tag.isSome then pure (.scalar (tag.getD "") true "")
          else reject

def blockItems : Nat → NodeReader (List Node)
  | 0 => reject
  | n + 1 => do
    match ← ahead with
    | .dash => do
      pass
      let item ← unlessAhead [.dash, .blockEnd] (node n true false)
      let more ← blockItems n
      pure (item :: more)
    | .blockEnd => do
      pass
      pure []
    | _ => reject

/-- The items of a sequence that stands in the column of its key. -/
def alignedItems : Nat → NodeReader (List Node)
  | 0 => reject
  | n + 1 => do
    match ← ahead with
    | .dash => do
      pass
      let item ← unlessAhead [.dash, .key, .value, .blockEnd] (node n true false)
      let more ← alignedItems n
      pure (item :: more)
    | _ => pure []

def blockPairs : Nat → NodeReader (List (Node × Node))
  | 0 => reject
  | n + 1 => do
    match ← ahead with
    | .key => do
      pass
      let name ← unlessAhead [.key, .value, .blockEnd] (node n true true)
      let value ← valueAhead n
      let more ← blockPairs n
      pure ((name, value) :: more)
    | .blockEnd => do
      pass
      pure []
    | _ => reject

def valueAhead : Nat → NodeReader Node
  | 0 => reject
  | n + 1 => do
    match ← ahead with
    | .value => do
      pass
      unlessAhead [.key, .value, .blockEnd] (node n true true)
    | _ => pure .empty

/-- The items of a sequence up to its closing bracket. A pair may stand without braces. -/
def flowItems : Nat → Bool → NodeReader (List Node)
  | 0, _ => reject
  | n + 1, first => do
    if !first && (← ahead) = .comma then pass
    else if !first && (← ahead) ≠ .sequenceEnd then reject
    match ← ahead with
    | .sequenceEnd => do
      pass
      pure []
    | .key => do
      pass
      let pair ← flowPair n
      let more ← flowItems n false
      pure (.mapping [pair] :: more)
    | _ => do
      let item ← node n false false
      let more ← flowItems n false
      pure (item :: more)

/-- A pair that is an item of a sequence. Where its key is missing, one token is dropped. -/
def flowPair : Nat → NodeReader (Node × Node)
  | 0 => reject
  | n + 1 => do
    let name ←
      if [.value, .comma, .sequenceEnd].contains (← ahead) then do
        pass
        pure .empty
      else node n false false
    match ← ahead with
    | .value => do
      pass
      let value ← unlessAhead [.comma, .sequenceEnd] (node n false false)
      pure (name, value)
    | _ => pure (name, .empty)

/-- The pairs of a mapping up to its closing brace. A key may stand without a value. -/
def flowPairs : Nat → Bool → NodeReader (List (Node × Node))
  | 0, _ => reject
  | n + 1, first => do
    if !first && (← ahead) = .comma then pass
    else if !first && (← ahead) ≠ .mappingEnd then reject
    match ← ahead with
    | .mappingEnd => do
      pass
      pure []
    | .key => do
      pass
      let name ← unlessAhead [.value, .comma, .mappingEnd] (node n false false)
      let value ← flowValue n
      let more ← flowPairs n false
      pure ((name, value) :: more)
    | _ => do
      let name ← node n false false
      let more ← flowPairs n false
      pure ((name, .empty) :: more)

def flowValue : Nat → NodeReader Node
  | 0 => reject
  | n + 1 => do
    match ← ahead with
    | .value => do
      pass
      unlessAhead [.comma, .mappingEnd] (node n false false)
    | _ => pure .empty

end

/-! ### Documents -/

/-- The handles that are known in every document. -/
def commonHandles : List (String × String) := [("!", "!"), ("!!", "tag:yaml.org,2002:")]

/-- The directives of a document. The version may be given once. -/
def directives : Nat → Bool → NodeReader Unit
  | 0, _ => reject
  | n + 1, versioned => do
    match ← ahead with
    | .version major minor =>
      if versioned || major ≠ 1 || minor ≠ 1 then reject
      else do
        pass
        directives n true
    | .handle name start => do
      let s ← get
      if (s.handles.lookup name).isSome then reject
      else do
        set { s with handles := s.handles ++ [(name, start)] }
        pass
        directives n versioned
    | _ => pure ()

def Token.isDirective : Token → Bool
  | .version .. => true
  | .handle .. => true
  | _ => false

def explicitDocument (fuel : Nat) : NodeReader Node := do
  directives fuel false
  modify fun s => { s with handles := s.handles ++ commonHandles }
  if (← ahead) ≠ .documentStart then reject
  else do
    pass
    let t ← ahead
    if t.isDirective || [.documentStart, .documentEnd, .streamEnd].contains t then pure .empty
    else node fuel true false

/-- The first document, or none if the text holds nothing but filler. What follows it has to start
with a token. -/
def document (fuel : Nat) : NodeReader (Option Node) := do
  let t ← ahead
  if t = .streamEnd then pure none
  else do
    let n ←
      if t.isDirective || t = .documentStart then explicitDocument fuel
      else do
        modify fun s => { s with handles := commonHandles }
        node fuel true false
    let _ ← ahead
    pure (some n)

/-- Reads the first document of a text. The outer option is a fault, the inner one the lack of any
document. -/
def parse? (text : String) : Option (Option Node) :=
  let lexer := Lexer.ofText text
  (document (4 * lexer.fuel) { lexer }).map (·.1)

end PocketBasic.Yaml
