import PocketBasic.Library.Name
import PocketBasic.Program.Compile

/-!
# The program library

Named programs that compile. A program keeps its identity and its time of creation while it is
saved again under the same name. `Store.list` gives the programs in order of their names, without
their texts.
-/

namespace PocketBasic.Library

structure Item where
  id : Nat
  name : String
  description : String
  source : String
  created : Int
  updated : Int
deriving DecidableEq, Repr

/-- A program to be saved, as it was handed in. -/
structure Draft where
  name : String
  description : String
  source : String
deriving DecidableEq, Repr

/-- The item with what a draft holds in place of what it held. -/
def Item.revise (i : Item) (d : Draft) (now : Int) : Item :=
  { i with description := d.description, source := d.source, updated := now }

def Item.withoutSource (i : Item) : Item := { i with source := "" }

inductive Action where
  | load (name : String)
  | save (name : String)
  | delete (name : String)
  | list
deriving DecidableEq, Repr

inductive StoreError where
  | invalidName (text : String)
  | notFound (name : String)
  | compile (fault : Fault)
  /-- The store is closed. -/
  | unavailable (action : Action)

def Action.describe : Action → String
  | .load name => "load program " ++ name
  | .save name => "save program " ++ name
  | .delete name => "delete program " ++ name
  | .list => "list programs"

def StoreError.message : StoreError → String
  | .invalidName text => invalidNameMessage text
  | .notFound name => "program not found: " ++ name
  | .compile fault => fault.message
  | .unavailable action => "failed to " ++ action.describe

/-- The programs by name, and the identity that the next new one gets. -/
structure Store where
  items : List Item := []
  nextId : Nat := 1
  closed : Bool := false

namespace Store

def find? (s : Store) (name : String) : Option Item := s.items.find? (·.name = name)

def checkName (text : String) : Except StoreError String :=
  match normalize? text with
  | some name => .ok name
  | none => .error (.invalidName text)

def get (s : Store) (text : String) : Except StoreError Item := do
  let name ← checkName text
  if s.closed then throw (.unavailable (.load name))
  match s.find? name with
  | some item => pure item
  | none => throw (.notFound name)

/-- Stores a draft that was found in order under a name. An item that has the name is found again by
its identity. -/
def put (s : Store) (name : String) (d : Draft) (now : Int) : Store × Item :=
  match s.find? name with
  | some old =>
    ({ s with items := s.items.map fun i => if i.id = old.id then i.revise d now else i },
      old.revise d now)
  | none =>
    let item : Item := ⟨s.nextId, name, d.description, d.source, now, now⟩
    ({ s with items := s.items ++ [item], nextId := s.nextId + 1 }, item)

def save (s : Store) (d : Draft) (now : Int) : Except StoreError (Store × Item) := do
  let name ← checkName d.name
  match Program.compile d.source with
  | .error fault => throw (.compile fault)
  | .ok _ =>
    if s.closed then throw (.unavailable (.load name))
    pure (s.put name d now)

def delete (s : Store) (text : String) : Except StoreError Store := do
  let name ← checkName text
  if s.closed then throw (.unavailable (.delete name))
  match s.find? name with
  | some _ => pure { s with items := s.items.filter (·.name ≠ name) }
  | none => throw (.notFound name)

def list (s : Store) : Except StoreError (List Item) :=
  if s.closed then .error (.unavailable .list)
  else .ok ((s.items.mergeSort fun a b => !(b.name < a.name)).map Item.withoutSource)

def close (s : Store) : Store := { s with closed := true }

/-- Adds the drafts whose names are missing, passing over those that do not compile. It stops at
the first name that cannot be looked up. The number counts the programs added. -/
def seed (s : Store) (now : Int) : List Draft → Store × Nat × Option StoreError
  | [] => (s, 0, none)
  | d :: ds => match s.get d.name with
    | .ok _ => s.seed now ds
    | .error (.notFound _) => match s.save d now with
      | .ok (s', _) =>
        let (s'', n, e) := s'.seed now ds
        (s'', n + 1, e)
      | .error _ => s.seed now ds
    | .error e => (s, 0, some e)

end Store

end PocketBasic.Library
