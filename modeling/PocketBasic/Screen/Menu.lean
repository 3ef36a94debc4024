import PocketBasic.Text.Typeface

/-!
# The menu screen

A title, the labels of the options and the highlighted one.
-/

namespace PocketBasic

structure Menu where
  title : String := ""
  labels : List String := []
  index : Nat := 0
deriving DecidableEq, Repr

namespace Menu

variable [Text.Typeface]

def titleWidth : Nat := 16
def labelWidth : Nat := 14

/-- A menu with its first option highlighted. Texts are cut to their place. -/
def ofOptions (title : String) (options : List String) : Menu :=
  { title := Text.truncate title titleWidth ""
    labels := options.map fun o => Text.truncate o labelWidth ""
    index := 0 }

/-- Highlights an option; a number out of range becomes the nearest one in range. -/
def select (m : Menu) (i : Int) : Menu := { m with index := min i.toNat (m.labels.length - 1) }

/-- Highlights the next option, after the last one the first. -/
def next (m : Menu) : Menu :=
  if m.labels.isEmpty then m else { m with index := (m.index + 1) % m.labels.length }

/-- Highlights the previous option, before the first one the last. -/
def previous (m : Menu) : Menu :=
  if m.labels.isEmpty then m
  else { m with index := if m.index = 0 then m.labels.length - 1 else m.index - 1 }

end Menu

end PocketBasic
