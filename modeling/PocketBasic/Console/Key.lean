/-!
# Keys of a text terminal

A terminal reports a key by its kind and the characters it produced. Most keys are passed on to the
calculator under the name that such a key has on a keyboard.
-/

namespace PocketBasic.Console

inductive KeyKind where
  | up
  | down
  | left
  | right
  | enter
  | backspace
  | space
  | characters
  | tab
  | escape
  | interrupt
  | f1
  | f2
  | delete
  | home
deriving DecidableEq, Repr

/-- The name of a key by itself. A key that produces characters goes by them instead. -/
def KeyKind.name : KeyKind → String
  | .up => "up"
  | .down => "down"
  | .left => "left"
  | .right => "right"
  | .enter => "enter"
  | .backspace => "backspace"
  | .space => " "
  | .characters => ""
  | .tab => "tab"
  | .escape => "esc"
  | .interrupt => "ctrl+c"
  | .f1 => "f1"
  | .f2 => "f2"
  | .delete => "delete"
  | .home => "home"

def KeyKind.all : List KeyKind :=
  [.up, .down, .left, .right, .enter, .backspace, .space, .characters, .tab, .escape, .interrupt,
    .f1, .f2, .delete, .home]

def KeyKind.ofName? (name : String) : Option KeyKind := KeyKind.all.find? fun k => k.name = name

structure Key where
  kind : KeyKind
  text : String := ""
  alt : Bool := false
deriving DecidableEq, Repr

namespace Key

def ofChar (c : Char) : Key := ⟨if c = ' ' then .space else .characters, String.singleton c, false⟩

def ofLine (line : List Char) : List Key := line.map ofChar ++ [⟨.enter, "", false⟩]

/-- The name by which key bindings refer to a key. -/
def name (k : Key) : String :=
  let base := match k.kind with
    | .characters => k.text
    | kind => kind.name
  if k.alt then "alt+" ++ base else base

def isQuit (k : Key) : Bool := k.name = "ctrl+c" || k.name = "esc"

def isHelp (k : Key) : Bool := k.name = "f1"

def punctuation : List (Char × String) :=
  [('.', "Period"), (',', "Comma"), ('-', "Minus"), ('=', "Equal"), ('/', "Slash"),
   (';', "Semicolon"), (Char.ofNat 39, "Quote"), ('[', "BracketLeft"), (']', "BracketRight")]

/-- The keyboard name of the key that produces a character. -/
def codeOf (c : Char) : String :=
  if c.isDigit then "Digit" ++ String.singleton c
  else if c.isAlpha then "Key" ++ String.singleton c.toUpper
  else (punctuation.lookup c).getD "Unidentified"

def press? (k : Key) : Option (String × String) :=
  match k.kind with
  | .up => some ("ArrowUp", "")
  | .down => some ("ArrowDown", "")
  | .left => some ("ArrowLeft", "")
  | .right => some ("ArrowRight", "")
  | .enter => some ("Enter", "")
  | .backspace => some ("Backspace", "")
  | .space => some ("Space", " ")
  | .characters => match k.text.toList with
    | [c] => if k.alt then none else some (codeOf c, k.text)
    | _ => none
  | _ => none

end Key

end PocketBasic.Console
