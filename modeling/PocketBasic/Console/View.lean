import PocketBasic.Calculator.Snapshot
import PocketBasic.Console.Key
import PocketBasic.Console.Layout

/-!
# The calculator in a text terminal

The screen of the calculator in a frame, a status line and, on request, a list of keys. A terminal
reports presses only, so that each key goes down and up at once.
-/

namespace PocketBasic.Console

variable [Text.Typeface]

structure Panel where
  calculator : Calculator
  showHelp : Bool := false

inductive Request where
  | none
  | tick
  | quit
deriving DecidableEq, Repr

namespace Panel

def tick (p : Panel) : Panel × Request :=
  ({ p with calculator := p.calculator.tick.2 }, .tick)

def key (p : Panel) (k : Key) : Panel × Request :=
  if k.isQuit then (p, .quit)
  else if k.isHelp then ({ p with showHelp := !p.showHelp }, .none)
  else match k.press? with
    | some (code, text) => ({ p with calculator := p.calculator.press code text }, .none)
    | none => (p, .none)

/-- Puts the glyph at a column into reverse video. -/
def splitAtCursor (col pos : Nat) : List Char → List Char × List Char × List Char
  | [] => ([], [], [])
  | c :: cs =>
    let w := Text.cellWidth c
    let (before, glyph, after) := splitAtCursor col (pos + w) cs
    if pos + w ≤ col then (c :: before, glyph, after)
    else if pos ≤ col then (before, [c], glyph ++ after)
    else (before, glyph, c :: after)

def withCursor (line : String) (col : Nat) : Line :=
  let (before, glyph, after) := splitAtCursor col 0 line.toList
  [⟨before, false⟩, ⟨if glyph.isEmpty then [' '] else glyph, true⟩, ⟨after, false⟩]

def homeBody (s : Snapshot) : List Line :=
  s.lines.zipIdx.map fun (line, i) =>
    if s.showCursor ∧ i = s.cursorRow then withCursor line s.cursorCol
    else [⟨line.toList, false⟩]

def menuOption (s : Snapshot) (label : String) (i : Nat) : List Line :=
  let number := toString ((i + 1) % 10) ++ ":"
  let text := plainLine (Text.padRight label Menu.labelWidth)
  beside (if i = s.menuIndex then block true number else plainLine number) text

def menuBody (s : Snapshot) : List Line :=
  let shown := s.menuLabels.take (Home.height - 1)
  block true (Text.padRight s.menuTitle Menu.titleWidth) ++
    shown.zipIdx.flatMap (fun (label, i) => menuOption s label i) ++
    List.replicate (Home.height - 1 - shown.length) [⟨(Text.spaces Row.columns).toList, false⟩]

def bodyOf (s : Snapshot) : List Line :=
  match s.screen with
  | .menu => menuBody s
  | .home => homeBody s

def body (p : Panel) : List Line := bodyOf p.calculator.snapshot

def helpKeys : List (String × String) :=
  [("↑/↓", "menu selection"), ("←/→", "getKey arrows"), ("0-9", "digits, menu choice"),
   ("enter", "submit, resume"), ("⌫", "edit input"), ("f1", "toggle help"), ("esc", "quit")]

def helpLine (key description : String) : String :=
  key ++ Text.spaces (6 - key.length) ++ " " ++ description

def help : List Line :=
  block false ("\n".intercalate (helpKeys.map fun (k, d) => helpLine k d))

def status (s : Snapshot) : List Line :=
  let name := if s.program.isEmpty then "-" else s.program
  block false (name ++ "  " ++ s.run.name ++ "  f1 help  esc quit") ++
    if s.error.isEmpty then [] else block false s.error

def view (p : Panel) : List String :=
  let s := p.calculator.snapshot
  frame (bodyOf s) ++ (status s).map Line.text ++
    if p.showHelp then help.map Line.text else []

end Panel

end PocketBasic.Console
