import PocketBasic.Text.Lines

/-!
# Paths of files
-/

namespace PocketBasic.Text

structure Path where
  /-- The path starts at the root and not in the working folder. -/
  rooted : Bool
  parts : List (List Char)
deriving DecidableEq, Repr

namespace Path

def up : List Char := ['.', '.']

/-- Takes a step from the parts so far, the last of which comes first. -/
def step (rooted : Bool) (done : List (List Char)) (part : List Char) : List (List Char) :=
  if part = [] ∨ part = ['.'] then done
  else if part = up then
    match done with
    | [] => if rooted then [] else [up]
    | last :: rest => if last = up then up :: done else rest
  else part :: done

def ofChars (cs : List Char) : Path :=
  let rooted := cs.head? = some '/'
  ⟨rooted, ((splitAt '/' cs).foldl (step rooted) []).reverse⟩

def ofText (s : String) : Path := ofChars s.toList

def text (p : Path) : String :=
  let inner := "/".intercalate (p.parts.map String.ofList)
  if p.rooted then "/" ++ inner else if p.parts.isEmpty then "." else inner

/-- The folder that a path without its last part leads to. -/
def folderOf (s : String) : Path := ofChars (s.toList.reverse.dropWhile (· ≠ '/')).reverse

/-- The paths to a place step by step. -/
def stages (p : Path) : List Path :=
  (List.range p.parts.length).map fun i => { p with parts := p.parts.take (i + 1) }

def isInside (p : Path) : Bool := !p.rooted && p.parts.head? ≠ some up

/-- The file name at the end of a path, without its last extension. -/
def stem (s : String) : String :=
  let name := (splitAt '/' s.toList).getLast?.getD []
  String.ofList (match name.reverse.dropWhile (· ≠ '.') with
    | [] => name
    | _ :: rest => rest.reverse)

def namesFolder (s : String) : Bool :=
  let last := (splitAt '/' s.toList).getLast?.getD []
  last = [] || last = ['.'] || last = up

end Path

end PocketBasic.Text
