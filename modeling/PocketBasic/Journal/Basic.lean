import PocketBasic.Settings.Basic
import PocketBasic.Text.Blank
import PocketBasic.Text.Case
import PocketBasic.Text.Lines
import PocketBasic.Text.Path

/-!
# The journal

Entries have a level and an area. Settings decide which of them are kept. The journal is a file that
is moved aside when it has grown too long: file one is the most recent of the old files. Warnings
and errors are also reported at once.
-/

namespace PocketBasic

namespace Journal

inductive Level where
  | debug
  | info
  | warn
  | error
  | fatal
deriving DecidableEq, Repr

namespace Level

def name : Level → String
  | .debug => "DEBUG"
  | .info => "INFO"
  | .warn => "WARN"
  | .error => "ERROR"
  | .fatal => "FATAL"

def rank : Level → Nat
  | .debug => 0
  | .info => 1
  | .warn => 2
  | .error => 3
  | .fatal => 4

/-- The level that a setting names; any other text means `info`. -/
def ofText (s : String) : Level :=
  match Text.upper (Text.trim s) with
  | "DEBUG" => .debug
  | "WARN" => .warn
  | "WARNING" => .warn
  | "ERROR" => .error
  | "FATAL" => .fatal
  | _ => .info

end Level

inductive Area where
  | interpreter
  | calculator
  | websocket
  | session
  | auth
  | database
  | programs
  | config
  | tui
  | general
deriving DecidableEq, Repr

namespace Area

def name : Area → String
  | .interpreter => "interpreter"
  | .calculator => "calculator"
  | .websocket => "websocket"
  | .session => "session"
  | .auth => "auth"
  | .database => "database"
  | .programs => "programs"
  | .config => "config"
  | .tui => "tui"
  | .general => "general"

def all : List Area :=
  [.interpreter, .calculator, .websocket, .session, .auth, .database, .programs, .config, .tui,
   .general]

def ofName? (s : String) : Option Area := all.find? (·.name = s)

end Area

structure Entry where
  level : Level
  area : Area
  message : String
  time : String
  place : String
deriving DecidableEq, Repr

namespace Entry

def brief (e : Entry) : String :=
  e.level.name ++ " [" ++ Text.upper e.area.name ++ "] " ++ e.message ++ "\n"

def text (e : Entry) : String :=
  "[" ++ e.time ++ "] " ++ e.level.name ++ " [" ++ e.place ++ "] [" ++ Text.upper e.area.name ++
    "] " ++ e.message ++ "\n"

def size (e : Entry) : Nat := e.text.utf8ByteSize

/-- The line that reports an entry at once. -/
def report (e : Entry) : String :=
  "[" ++ e.level.name ++ "] [" ++ Text.upper e.area.name ++ "] " ++ e.message

end Entry

/-- The live file of a path has number zero, the old ones follow. -/
structure FileName where
  path : String
  number : Nat
deriving DecidableEq, Repr

def FileName.text (f : FileName) : String :=
  if f.number = 0 then f.path else f.path ++ "." ++ toString f.number

abbrev Folder := List (FileName × List Entry)

namespace Folder

def find? (d : Folder) (f : FileName) : Option (List Entry) := d.lookup f

def remove (d : Folder) (f : FileName) : Folder := d.filter (·.1 != f)

def put (d : Folder) (f : FileName) (entries : List Entry) : Folder := (f, entries) :: d.remove f

/-- Renames a file, which replaces a file of the new name. A missing file is left alone. -/
def rename (d : Folder) (a b : FileName) : Folder :=
  match d.find? a with
  | some entries => (d.remove a).put b entries
  | none => d

/-- Moves the old files from number `i` down to one up by one. -/
def shift (d : Folder) (path : String) : Nat → Folder
  | 0 => d
  | i + 1 => (d.rename ⟨path, i + 1⟩ ⟨path, i + 2⟩).shift path i

/-- Makes the live file the first old one and starts a new one. At most `keep` old files remain, but
one always does. -/
def rotate (d : Folder) (path : String) (keep : Int) : Folder :=
  let top := (keep - 1).toNat
  let d₁ := if 0 < top then d.remove ⟨path, top + 1⟩ else d
  ((d₁.shift path top).rename ⟨path, 0⟩ ⟨path, 1⟩).put ⟨path, 0⟩ []

end Folder

/-- The parts of a path between slashes, without empty ones and those that stay in place. -/
def pathParts (path : String) : List (List Char) :=
  (Text.splitAt '/' path.toList).filter fun p => !p.isEmpty && p != ['.']

/-- What the settings say about the journal. A path that names a folder cannot be written to. -/
structure Options where
  enabled : Bool
  level : Level
  /-- The parts of the path of the live file, or nothing if the path names a folder. -/
  parts : Option (List (List Char))
  maxMegabytes : Int
  keep : Int
  areas : List Area

def Options.ofSettings (s : Settings) : Options :=
  { enabled := s.getBool "Debug" "enable_debug_logging" true
    level := .ofText (s.getString "Debug" "log_level" "INFO")
    parts :=
      let path := s.getString "Debug" "log_file" "retrocalc.log"
      if Text.Path.namesFolder path then none else some (pathParts path)
    maxMegabytes := s.getInt "Debug" "max_log_size_mb" 10
    keep := s.getInt "Debug" "log_rotation_count" 3
    areas := Area.all.filter fun a => s.getBool "Debug" ("log_" ++ a.name) false }

def joinPath (parts : List (List Char)) : String :=
  "/".intercalate (parts.map String.ofList)

end Journal

/-- An open journal. `file` is the path that is written to; it is `none` once closed. -/
structure Journal where
  options : Journal.Options
  file : Option String
  size : Nat := 0
  folder : Journal.Folder
  /-- The folder made for the live file. -/
  base : List (List Char)

namespace Journal

/-- The size beyond which the live file is moved aside, in bytes of a 64-bit count. -/
def maxSize (j : Journal) : Int := (j.options.maxMegabytes * 1048576).bmod (Nat.pow 2 64)

def wants (j : Journal) (level : Level) (area : Area) : Bool :=
  j.options.enabled && j.options.level.rank ≤ level.rank && j.options.areas.contains area

/-- Moves the live file aside. Without a folder for the new one the journal is closed. -/
def rotate (j : Journal) : Journal :=
  match j.options.parts with
  | none => { j with file := none }
  | some parts =>
    if parts.dropLast.isPrefixOf j.base then
      let path := joinPath parts
      { j with folder := j.folder.rotate path j.options.keep, file := some path, size := 0 }
    else { j with file := none }

/-- Appends an entry to the live file and moves the file aside when it has grown too long. -/
def append (j : Journal) (e : Entry) : Journal :=
  match j.file with
  | none => j
  | some path =>
    let old := (j.folder.find? ⟨path, 0⟩).getD []
    let j₁ := { j with folder := j.folder.put ⟨path, 0⟩ (old ++ [e]), size := j.size + e.size }
    if j₁.maxSize < j₁.size then j₁.rotate else j₁

/-- Keeps an entry if the options ask for it. The second part is what is reported at once. -/
def log (j : Journal) (e : Entry) : Journal × String :=
  if j.wants e.level e.area then
    (j.append e, if Level.warn.rank ≤ e.level.rank then e.report ++ "\n" else "")
  else (j, "")

def setArea (j : Journal) (area : Area) (on : Bool) : Journal :=
  let others := j.options.areas.filter (· != area)
  { j with options := { j.options with areas := if on then area :: others else others } }

def reload (j : Journal) (s : Settings) : Journal := { j with options := .ofSettings s }

def close (j : Journal) : Journal := { j with file := none }

def openWith? (s : Settings) : Option Journal :=
  let options := Options.ofSettings s
  options.parts.map fun parts =>
    let path := joinPath parts
    ⟨options, some path, 0, [(⟨path, 0⟩, [])], parts.dropLast⟩

end Journal

end PocketBasic
