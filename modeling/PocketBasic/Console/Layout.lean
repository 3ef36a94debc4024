import PocketBasic.Console.Cells

/-!
# Blocks of text

Lines of text, some of them in reverse video, padded to one width and drawn in a frame with round
corners.
-/

namespace PocketBasic.Console

/-- A piece of a line, perhaps in reverse video. -/
structure Span where
  text : List Char
  reversed : Bool := false

abbrev Line := List Span

namespace Line

def plain (l : Line) : List Char := l.flatMap Span.text

def width (l : Line) : Nat := cells l.plain

def text (l : Line) : String := String.ofList l.plain

/-- The line with reverse video shown by braces. -/
def marked (l : Line) : String :=
  String.ofList (l.flatMap fun s =>
    if s.reversed then '\x7b' :: (s.text ++ ['\x7d']) else s.text)

def pad (w : Nat) (l : Line) : Line := l ++ [⟨List.replicate (w - l.width) ' ', false⟩]

end Line

def splitLines : List Char → List (List Char)
  | [] => [[]]
  | c :: cs =>
    if c = '\n' then [] :: splitLines cs
    else match splitLines cs with
      | l :: ls => (c :: l) :: ls
      | [] => [[c]]

/-- Tabs become four spaces, and a line feed alone ends a line. -/
def cleanText : List Char → List Char
  | [] => []
  | '\r' :: '\n' :: cs => '\n' :: cleanText cs
  | '\t' :: cs => ' ' :: ' ' :: ' ' :: ' ' :: cleanText cs
  | c :: cs => c :: cleanText cs

def widest (ls : List Line) : Nat := (ls.map Line.width).foldl max 0

def block (reversed : Bool) (text : String) : List Line :=
  match (splitLines (cleanText text.toList)).map fun l => ([⟨l, reversed⟩] : Line) with
  | [l] => [l]
  | ls => ls.map (Line.pad (widest ls))

/-- Puts blocks side by side; only the outermost lines of a block meet its neighbours. -/
def beside : List Line → List Line → List Line
  | [], b => b
  | [x], y :: ys => (x ++ y) :: ys
  | [x], [] => [x]
  | x :: xs, b => x :: beside xs b

def plainLine (text : String) : List Line :=
  (splitLines text.toList).map fun l => [⟨l, false⟩]

/-- A frame around lines, with one space on each side. The lines are cleaned as one text. -/
def frame (ls : List Line) : List String :=
  let text := ['\n'].intercalate (ls.map Line.plain)
  let spaced : List Line := (splitLines (cleanText text)).map fun l =>
    [⟨' ' :: (l ++ [' ']), false⟩]
  let w := widest spaced
  let bar := String.ofList (List.replicate w '─')
  ("╭" ++ bar ++ "╮") :: spaced.map (fun l => "│" ++ (Line.pad w l).text ++ "│") ++
    ["╰" ++ bar ++ "╯"]

end PocketBasic.Console
