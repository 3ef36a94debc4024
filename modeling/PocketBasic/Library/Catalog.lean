import PocketBasic.Library.Store

/-!
# Catalogs

A catalog is a document that lists programs to be put into a library. Its entries have a name, a
description and a source, and their names are distinct program names.
-/

namespace PocketBasic.Library

inductive CatalogError where
  | document
  | invalidName (entry : Nat) (quotedName : String)
  | duplicate (entry : Nat) (name : String)

def CatalogError.message : CatalogError → String
  | .document => "parse catalog"
  | .invalidName entry quotedName =>
    "catalog entry " ++ toString entry ++ ": invalid program name: " ++ quotedName
  | .duplicate entry name =>
    "catalog entry " ++ toString entry ++ ": duplicate program " ++ name

namespace Catalog

structure Entry where
  name : String
  /-- The name in quotes. It may hold bytes that are no text. -/
  quotedName : String
  description : String
  source : String

abbrev Reader := String → Option (List Entry)

/-- Brings the names of entries to their form. `seen` holds the names before entry `i`. -/
def drafts (seen : List String) (i : Nat) : List Entry → Except CatalogError (List Draft)
  | [] => .ok []
  | e :: es => match normalize? e.name with
    | none => .error (.invalidName i e.quotedName)
    | some name =>
      if seen.contains name then .error (.duplicate i name)
      else (drafts (name :: seen) (i + 1) es).map (⟨name, e.description, e.source⟩ :: ·)

def parse (read : Reader) (text : String) : Except CatalogError (List Draft) :=
  match read text with
  | none => .error .document
  | some entries => drafts [] 1 entries

end Catalog

end PocketBasic.Library
