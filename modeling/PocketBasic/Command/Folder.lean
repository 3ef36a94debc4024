import PocketBasic.Text.Path

/-!
# The working folder

The command works in a folder of text files. Paths may lead out of the folder. What stands at a path
decides whether it can be read, written or made a folder.
-/

namespace PocketBasic.Command

open Text (Path)

inductive Obstacle where
  | missing
  | isFolder
  | notFolder
  | nameTooLong
deriving DecidableEq, Repr

def Obstacle.text : Obstacle → String
  | .missing => "no such file or directory"
  | .isFolder => "is a directory"
  | .notFolder => "not a directory"
  | .nameTooLong => "file name too long"

structure FileError where
  action : String
  path : String
  obstacle : Obstacle
deriving DecidableEq, Repr

def FileError.message (e : FileError) : String :=
  e.action ++ " " ++ e.path ++ ": " ++ e.obstacle.text

inductive Place where
  | missing
  | folder
  | file (text : String)
  /-- The path cannot be followed. -/
  | barred (reason : Obstacle)
deriving DecidableEq, Repr

namespace Place

def read (path : String) : Place → Except FileError String
  | .file text => .ok text
  | .folder => .error ⟨"read", path, .isFolder⟩
  | .missing => .error ⟨"open", path, .missing⟩
  | .barred reason => .error ⟨"open", path, reason⟩

/-- Whether a file can be written, given what stands at its path and what holds it. -/
def writeError? (path : String) (here above : Place) : Option FileError :=
  match here, above with
  | .file _, _ => none
  | .folder, _ => some ⟨"open", path, .isFolder⟩
  | .barred reason, _ => some ⟨"open", path, reason⟩
  | .missing, .folder =>
    if path.isEmpty then some ⟨"open", path, .missing⟩
    else if Path.namesFolder path then some ⟨"open", path, .isFolder⟩
    else none
  | .missing, _ =>
    some ⟨"open", path, if Path.namesFolder path && !path.isEmpty then .isFolder else .missing⟩

end Place

/-- The files, and the folders that are there besides those that hold a file. -/
structure Folder where
  files : List (Path × String) := []
  folders : List Path := []
deriving DecidableEq, Repr

namespace Folder

def ofFiles (files : List (String × String)) : Folder :=
  { files := files.map fun (path, text) => (Path.ofText path, text)
    folders := [⟨true, ["tmp".toList]⟩] }

def maxName : Nat := 255

/-- A path leads to a place below another. -/
def below (p q : Path) : Bool := p.rooted = q.rooted && q.parts.isPrefixOf p.parts && p ≠ q

def hasFolder (d : Folder) (p : Path) : Bool :=
  p.parts.all (· = Path.up) || d.folders.any (fun q => q = p || below q p) ||
    d.files.any fun (q, _) => below q p

def look (d : Folder) (path : String) : Place :=
  let p := Path.ofText path
  if path.isEmpty then .missing
  else if p.parts.any (maxName < Text.byteLength ·) then .barred .nameTooLong
  else match d.files.lookup p with
    | some text => if Path.namesFolder path then .barred .notFolder else .file text
    | none =>
      if d.hasFolder p then .folder
      else if d.files.any fun (q, _) => below p q then .barred .notFolder
      else .missing

def put (d : Folder) (path text : String) : Folder :=
  let p := Path.ofText path
  { d with files := (p, text) :: d.files.filter (·.1 ≠ p) }

def addFolder (d : Folder) (path : String) : Folder :=
  { d with folders := Path.ofText path :: d.folders }

def paths (d : Folder) : List String :=
  ((d.files.filter (·.1.isInside)).map (·.1.text)).mergeSort fun a b => !(b < a)

end Folder

end PocketBasic.Command
