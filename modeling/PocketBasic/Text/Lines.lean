/-!
# Lines of a text
-/

namespace PocketBasic.Text

def splitAt (sep : Char) : List Char → List (List Char)
  | [] => [[]]
  | c :: cs =>
    if c = sep then [] :: splitAt sep cs
    else match splitAt sep cs with
      | l :: ls => (c :: l) :: ls
      | [] => [[c]]

def cut? (sep : Char) : List Char → Option (List Char × List Char)
  | [] => none
  | c :: cs =>
    if c = sep then some ([], cs)
    else (cut? sep cs).map fun (a, b) => (c :: a, b)

def dropCarriageReturn (l : List Char) : List Char :=
  if l.getLast? = some '\r' then l.dropLast else l

/-- The lines of a file. The end of the last line need not be marked. -/
def lines (cs : List Char) : List (List Char) :=
  let parts := splitAt '\n' cs
  (if parts.getLast? = some [] then parts.dropLast else parts).map dropCarriageReturn

def byteLength (cs : List Char) : Nat := (cs.map Char.utf8Size).foldr (· + ·) 0

end PocketBasic.Text
