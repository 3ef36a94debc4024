/-!
# How wide text is shown

A terminal shows a character in no, one or two cells. A text may take fewer cells than its characters
do one by one, so its width is not their sum.
-/

namespace PocketBasic.Text

/-- The widths of characters and texts. It is inferred, so that not every call that draws has to name
it. -/
class Typeface where
  cellWidth : Char → Nat
  textWidth : String → Nat
  /-- A text cut to a number of cells; a cut text ends in the last argument. -/
  truncate : String → Nat → String → String
  cellWidth_le_two : ∀ c, cellWidth c ≤ 2
  cellWidth_blank : cellWidth ' ' = 1
  textWidth_empty : textWidth "" = 0
  truncate_of_le : ∀ s w tail, textWidth s ≤ w → truncate s w tail = s
  truncate_of_lt : ∀ s w tail, w < textWidth s → ∃ kept : List Char, kept <+: s.toList ∧
    textWidth (String.ofList kept) ≤ w - textWidth tail ∧
    truncate s w tail = String.ofList kept ++ tail

export Typeface (cellWidth textWidth truncate cellWidth_le_two cellWidth_blank)

def spaces (n : Nat) : String := String.ofList (List.replicate n ' ')

variable [Typeface]

def padRight (s : String) (w : Nat) : String := s ++ spaces (w - textWidth s)

def padLeft (s : String) (w : Nat) : String := spaces (w - textWidth s) ++ s

end PocketBasic.Text
