import PocketBasic.Settings.Defaults
import PocketBasic.Text.Blank
import PocketBasic.Text.Lines
import PocketBasic.Text.Quoted

/-!
# Settings files

A settings file is read line by line: blank lines and comments are passed over, a name in brackets
opens a section, and all else is a key and a value around an equals sign. What has been read before
a faulty line stays in effect. Settings are written with the known sections first and keys in order.
-/

namespace PocketBasic

inductive SettingsError where
  | expectedPair (line : Nat) (text : String)
  | outsideSection (line : Nat) (key : String)
  | lineTooLong
  | noFile
  | notInitialized
deriving DecidableEq, Repr

def SettingsError.message : SettingsError → String
  | .expectedPair line text =>
    "line " ++ toString line ++ ": expected key=value, got " ++ Text.quote text
  | .outsideSection line key =>
    "line " ++ toString line ++ ": key " ++ Text.quote key ++ " outside of a section"
  | .lineTooLong => "bufio.Scanner: token too long"
  | .noFile => "configuration has no backing file"
  | .notInitialized => "configuration not initialized"

namespace Settings

/-- What a line of a settings file says. -/
inductive LineKind where
  | nothing
  | header (name : String)
  | pair (key value : String)
  | junk
deriving DecidableEq, Repr

/-- The name between brackets, if a trimmed line consists of one. -/
def header? (line : List Char) : Option String :=
  match line with
  | '[' :: rest =>
    if rest.getLast? = some ']' then some (String.ofList (Text.trimChars rest.dropLast)) else none
  | _ => none

def classify (line : List Char) : LineKind :=
  if line.isEmpty || line.head? = some ';' || line.head? = some '#' then .nothing
  else match header? line with
    | some name => .header name
    | none => match Text.cut? '=' line with
      | some (key, value) =>
        .pair (String.ofList (Text.trimChars key)) (String.ofList (Text.trimChars value))
      | none => .junk

/-- The longest line that can be read, in bytes. -/
def maxLine : Nat := 65535

/-- Reads lines from number `n` on in the section `current`, which is empty before the first
header. -/
def readLines (s : Settings) (current : String) (n : Nat) :
    List (List Char) → Settings × Option SettingsError
  | [] => (s, none)
  | raw :: rest =>
    if maxLine < Text.byteLength raw then (s, some .lineTooLong)
    else
      let line := Text.trimChars (Text.dropCarriageReturn raw)
      match classify line with
      | .nothing => s.readLines current (n + 1) rest
      | .header name => (s.openSection name).readLines name (n + 1) rest
      | .junk => (s, some (.expectedPair n (String.ofList line)))
      | .pair key value =>
        if current.isEmpty then (s, some (.outsideSection n key))
        else (s.set current key value).readLines current (n + 1) rest

/-- The raw lines of a text; the end of the last line need not be marked. -/
def rawLines (cs : List Char) : List (List Char) :=
  let parts := Text.splitAt '\n' cs
  if parts.getLast? = some [] then parts.dropLast else parts

/-- Reads a file on top of settings. -/
def merge (s : Settings) (text : String) : Settings × Option SettingsError :=
  s.readLines "" 1 (rawLines text.toList)

def parse (text : String) : Except SettingsError Settings :=
  match merge {} text with
  | (s, none) => .ok s
  | (_, some e) => .error e

def sectionOrder : List String :=
  ["Server", "Calculator", "Database", "JWT", "Admin", "Session", "Network", "TLS", "Debug"]

def sortKeys (s : Section) : Section := s.mergeSort fun a b => !(b.1 < a.1)

def renderSection (name : String) (entries : Section) : String :=
  let lines := (sortKeys entries).map fun (k, v) => k ++ "=" ++ v ++ "\n"
  "[" ++ name ++ "]\n" ++ String.join lines ++ "\n"

def ordered (s : Settings) : List (String × Section) :=
  sectionOrder.filterMap (fun name => (s.section? name).map (name, ·)) ++
    s.sections.filter fun (name, _) => !sectionOrder.contains name

def render (s : Settings) : String :=
  "; retrocalc configuration\n; generated defaults, edit as needed\n\n" ++
    String.join (s.ordered.map fun (name, entries) => renderSection name entries)

structure Stored where
  settings : Settings
  hasFile : Bool
  file : Option String

/-- Reads the settings file; one that is missing is written with the defaults. -/
def load (file : Option String) : Except SettingsError Stored :=
  match file with
  | none => .ok ⟨defaults, true, some defaults.render⟩
  | some text => (parse text).map (⟨·, true, file⟩)

/-- Reads the settings file and then the local one on top of it. A fault in the local file is not
reported. -/
def loadLayered (file localFile : Option String) : Except SettingsError Stored :=
  (load file).map fun stored => match localFile with
    | none => stored
    | some text => { stored with settings := (stored.settings.merge text).1 }

def Stored.save (s : Stored) : Except SettingsError Stored :=
  if s.hasFile then .ok { s with file := some s.settings.render } else .error .noFile

end Settings

end PocketBasic
