/-!
# TOML documents

A document is a list of lines: pairs of a key and a value, and headers that open a table or add an
element to an array of tables. Keys may be dotted. Numbers and moments are kept as they are written,
since only a reader of the document knows what they are needed for.
-/

namespace PocketBasic.Toml

abbrev Key := List String

inductive Value where
  | text (s : String)
  | bool (b : Bool)
  | integer (written : List Char)
  | float (written : List Char)
  /-- A date, a time or both. -/
  | moment (written : List Char)
  | array (items : List Value)
  | table (pairs : List (Key × Value))

inductive Line where
  | pair (key : Key) (value : Value)
  | table (key : Key)
  | element (key : Key)

end PocketBasic.Toml
