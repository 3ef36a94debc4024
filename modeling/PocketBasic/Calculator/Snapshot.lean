import PocketBasic.Calculator.Basic

/-!
# Frames

A frame holds all that is needed to draw the calculator. Typed input is drawn over the home screen
from the cursor on.
-/

namespace PocketBasic

structure Snapshot where
  version : Nat
  program : String
  run : RunMode
  screen : ScreenMode
  lines : List String
  cursorRow : Nat
  cursorCol : Nat
  showCursor : Bool
  input : String
  menuTitle : String
  menuLabels : List String
  menuIndex : Nat
  error : String
deriving DecidableEq, Repr

variable [Text.Typeface]

def Calculator.snapshot (c : Calculator) : Snapshot :=
  let (drawn, row, col) := c.home.drawWrapped c.home.cursorRow c.home.cursorCol c.input.toList
  { version := c.version
    program := c.name
    run := c.mode
    screen := c.screen
    lines := drawn.lines
    cursorRow := row
    cursorCol := col
    showCursor := c.mode = .input
    input := c.input
    menuTitle := c.menu.title
    menuLabels := c.menu.labels
    menuIndex := c.menu.index
    error := match c.fault with
      | some f => f.message
      | none => "" }

end PocketBasic
