import PocketBasic.Number.Integer
import PocketBasic.Settings.Duration

/-!
# Settings

Sections of keys and values, all of them texts, and readers that fall back to a default where a
value is missing or does not have the wanted form.
-/

namespace PocketBasic

abbrev Section := List (String × String)

structure Settings where
  sections : List (String × Section) := []
deriving DecidableEq, Repr

namespace Settings

/-- Gives a key its value in an association list, at its old place or at the end. -/
def assign {α : Type} (key : String) (value : α) : List (String × α) → List (String × α)
  | [] => [(key, value)]
  | (k, v) :: rest => if key == k then (k, value) :: rest else (k, v) :: assign key value rest

def section? (s : Settings) (name : String) : Option Section := s.sections.lookup name

def sectionOf (s : Settings) (name : String) : Section := (s.section? name).getD []

def get? (s : Settings) (name key : String) : Option String := (s.sectionOf name).lookup key

def openSection (s : Settings) (name : String) : Settings :=
  match s.section? name with
  | some _ => s
  | none => ⟨s.sections ++ [(name, [])]⟩

def set (s : Settings) (name key value : String) : Settings :=
  ⟨assign name (assign key value (s.sectionOf name)) s.sections⟩

def getString (s : Settings) (name key default : String) : String := (s.get? name key).getD default

def getInt (s : Settings) (name key : String) (default : Int) : Int :=
  ((s.get? name key).bind Number.readInteger?).getD default

def getFloat (s : Settings) (name key : String) (default : Float) : Float :=
  ((s.get? name key).bind Number.read?).getD default

def readBool? (s : String) : Option Bool :=
  if ["1", "t", "T", "TRUE", "true", "True"].contains s then some true
  else if ["0", "f", "F", "FALSE", "false", "False"].contains s then some false
  else none

def getBool (s : Settings) (name key : String) (default : Bool) : Bool :=
  ((s.get? name key).bind readBool?).getD default

/-- A length of time in nanoseconds, given with units or as whole seconds. -/
def getDuration (s : Settings) (name key : String) (default : Int) : Int :=
  match s.get? name key with
  | none => default
  | some text => match Duration.read? text with
    | some d => d
    | none => match Number.readInteger? text with
      | some n => Duration.ofSeconds n
      | none => default

end Settings

end PocketBasic
