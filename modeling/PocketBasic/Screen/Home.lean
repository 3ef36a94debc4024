import PocketBasic.Program.Value
import PocketBasic.Text.Typeface

/-!
# The home screen

A grid of eight rows and sixteen columns. A cell shows one glyph, or nothing if the wide glyph on
its left covers it. Overwriting one half of a wide glyph blanks the other half.
-/

namespace PocketBasic

variable [Text.Typeface]

inductive Cell where
  | glyph (c : Char)
  | covered
deriving DecidableEq, Repr

namespace Cell

def blank : Cell := .glyph ' '

def width : Cell → Nat
  | .glyph c => Text.cellWidth c
  | .covered => 0

def chars : Cell → List Char
  | .glyph c => [c]
  | .covered => []

end Cell

abbrev Row := Vector Cell 16

namespace Row

def columns : Nat := 16

def blank : Row := Vector.replicate 16 .blank

def isBlank (r : Row) : Bool := r.toList.all (· = .blank)

/-- Blanks the other half of a wide glyph of which one half, at `col`, is about to go. -/
def uncover (r : Row) (col : Nat) : Row :=
  match r[col]? with
  | some .covered => if 0 < col then r.setIfInBounds (col - 1) .blank else r
  | some (.glyph c) => if Text.cellWidth c = 2 then r.setIfInBounds (col + 1) .blank else r
  | none => r

/-- Puts a glyph of width one or two into the row. -/
def put (r : Row) (col : Nat) (c : Char) : Row :=
  let r₁ : Row := (r.uncover col).setIfInBounds col (.glyph c)
  if Text.cellWidth c = 2 then (r₁.uncover (col + 1)).setIfInBounds (col + 1) .covered else r₁

def write (r : Row) (col : Nat) : List Char → Row
  | [] => r
  | c :: cs =>
    let w := Text.cellWidth c
    if w = 0 then r.write col cs
    else if columns < col + w then r
    else (r.put col c).write (col + w) cs

def text (r : Row) : String := String.ofList (r.toList.flatMap Cell.chars)

end Row

/-- The grid and the position after the text displayed last, counted from zero. -/
structure Home where
  rows : Vector Row 8
  cursorRow : Nat
  cursorCol : Nat

namespace Home

def height : Nat := 8

def cleared : Home := ⟨Vector.replicate 8 .blank, 0, 0⟩

def ellipsis : String := "..."

def scroll (h : Home) : Home :=
  { rows := (h.rows.drop 1).push .blank
    cursorRow := h.cursorRow - 1
    cursorCol := if 0 < h.cursorRow then h.cursorCol else 0 }

def firstBlankRow? (h : Home) : Option Nat := h.rows.toList.findIdx? Row.isBlank

def writeRow (h : Home) (row col : Nat) (cs : List Char) : Home :=
  match h.rows[row]? with
  | some r => { h with rows := h.rows.setIfInBounds row (r.write col cs) }
  | none => h

/-- The text as it is displayed: cut, or with texts at the left and all else at the right. -/
def alignedText (v : Value) : String :=
  let text := v.text
  if Row.columns < Text.textWidth text then Text.truncate text Row.columns ellipsis
  else if v.isString then Text.padRight text Row.columns
  else Text.padLeft text Row.columns

/-- Writes a value on the first blank row. Writing on the last row scrolls. -/
def display (h : Home) (v : Value) : Home :=
  let line := alignedText v
  let (h₁, row) := match h.firstBlankRow? with
    | some row => (h, row)
    | none => (h.scroll, height - 1)
  let shown := String.ofList (Text.dropEndWhile (· = ' ') line.toList)
  let h₂ := { h₁.writeRow row 0 line.toList with
    cursorRow := row
    cursorCol := min (Text.textWidth shown) Row.columns }
  if row = height - 1 then h₂.scroll else h₂

/-- Overwrites cells from a position on, counted from one; outside the grid nothing happens. -/
def output (h : Home) (row col : Int) (v : Value) : Home :=
  if 1 ≤ row ∧ row ≤ height ∧ 1 ≤ col ∧ col ≤ Row.columns then
    h.writeRow (row - 1).toNat (col - 1).toNat v.text.toList
  else h

/-- Draws a text from a position on, which wraps at the right edge and is dropped below the last
row. The result is the screen and the position after the text. -/
def drawWrapped (h : Home) (row col : Nat) : List Char → Home × Nat × Nat
  | [] => (h, row, col)
  | c :: cs =>
    let w := Text.cellWidth c
    if w = 0 then h.drawWrapped row col cs
    else
      let (row, col) := if Row.columns < col + w then (row + 1, 0) else (row, col)
      if height ≤ row then (h, row, col)
      else (h.writeRow row col [c]).drawWrapped row (col + w) cs

def lines (h : Home) : List String := h.rows.toList.map Row.text

end Home

end PocketBasic
