import PocketBasic.Text.Blank

/-!
# Key maps

A key map gives keys the numbers that `getKey` reports. A document may change the built-in map: its
table `keys` adds and replaces entries, and the number zero takes an entry away.
-/

namespace PocketBasic

structure KeyMap where
  entries : List (String × Int)

inductive KeyMapError where
  | document
  | emptyCode
  | negative (code : String) (number : Int)
  /-- The file at this path cannot be read. -/
  | unreadable (path : String)
deriving DecidableEq, Repr

def KeyMapError.message : KeyMapError → String
  | .document => "parse key map"
  | .emptyCode => "key map: empty key code"
  | .negative code number =>
    "key map: " ++ code ++ " has negative key number " ++ toString number
  | .unreadable path => "read key map " ++ path

namespace KeyMap

def get? (k : KeyMap) (code : String) : Option Int := k.entries.lookup code

def erase (k : KeyMap) (code : String) : KeyMap := ⟨k.entries.filter (·.1 != code)⟩

def insert (k : KeyMap) (code : String) (number : Int) : KeyMap :=
  ⟨(k.erase code).entries ++ [(code, number)]⟩

def digitNumbers : List Int := [102, 92, 93, 94, 82, 83, 84, 72, 73, 74]

/-- The keys of the handheld, with the digits and Enter of the numeric pad as second names. -/
def builtin : KeyMap :=
  ⟨[("ArrowLeft", 24), ("ArrowUp", 25), ("ArrowRight", 26), ("ArrowDown", 34), ("Enter", 105),
    ("NumpadEnter", 105)] ++
   (digitNumbers.zipIdx.flatMap fun (n, d) =>
    [("Digit" ++ toString d, n), ("Numpad" ++ toString d, n)])⟩

def adjust (k : KeyMap) (code : String) (number : Int) : Except KeyMapError KeyMap :=
  if (Text.trim code).isEmpty then .error .emptyCode
  else if number < 0 then .error (.negative code number)
  else if number = 0 then .ok (k.erase code)
  else .ok (k.insert code number)

def adjustAll (k : KeyMap) : List (String × Int) → Except KeyMapError KeyMap
  | [] => .ok k
  | (code, number) :: rest => (k.adjust code number).bind (·.adjustAll rest)

/-- How the table `keys` of a document is read. -/
structure TableReader where
  read? : String → Option (List (String × Int))
  distinct : ∀ text table, read? text = some table → (table.map Prod.fst).Nodup
  read?_empty : read? "" = some []

def ofDocument (reader : TableReader) (text : String) : Except KeyMapError KeyMap :=
  if text.isEmpty then .ok builtin
  else match reader.read? text with
    | none => .error .document
    | some entries => builtin.adjustAll entries

end KeyMap

end PocketBasic
