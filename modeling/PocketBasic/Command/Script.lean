import PocketBasic.Command.Folder

/-!
# Scripts

A script is a course of action on files: each look at a path decides how it goes on. It can be
carried out on a folder that is held in memory or on that of the computer.
-/

namespace PocketBasic.Command

open Text (Path)

inductive Script (α : Type) where
  | done (a : α)
  | look (path : String) (next : Place → Script α)
  | put (path text : String) (next : Script α)
  | addFolder (path : String) (next : Script α)

namespace Script

variable {α β : Type}

protected def bind (s : Script α) (f : α → Script β) : Script β :=
  match s with
  | .done a => f a
  | .look path next => .look path fun place => (next place).bind f
  | .put path text next => .put path text (next.bind f)
  | .addFolder path next => .addFolder path (next.bind f)

instance : Monad Script where
  pure := .done
  bind := Script.bind

def runOn (d : Folder) : Script α → α × Folder
  | .done a => (a, d)
  | .look path next => (next (d.look path)).runOn d
  | .put path text next => next.runOn (d.put path text)
  | .addFolder path next => next.runOn (d.addFolder path)

def place (path : String) : Script Place := .look path .done

def readFile (path : String) : Script (Except FileError String) := do
  return (← place path).read path

def writeFile (path text : String) : Script (Except FileError Unit) := do
  let here ← place path
  let above ← place (Path.folderOf path).text
  match Place.writeError? path here above with
  | some e => return .error e
  | none => .put path text (.done (.ok ()))

/-- Adds text to the end of a file, which is made if it is missing. -/
def appendFile (path text : String) : Script (Except FileError Unit) := do
  match ← place path with
  | .file old => .put path (old ++ text) (.done (.ok ()))
  | _ => writeFile path text

/-- Makes the folders of a list of paths that are missing, up to the first that cannot be made. -/
def makeAll : List Path → Script (Except FileError Unit)
  | [] => pure (.ok ())
  | p :: ps => do
    match ← place p.text with
    | .folder => makeAll ps
    | .missing => .addFolder p.text (makeAll ps)
    | .file _ => return .error ⟨"mkdir", p.text, .notFolder⟩
    | .barred reason => return .error ⟨"mkdir", p.text, reason⟩

def makeFolders (p : Path) : Script (Except FileError Unit) := makeAll p.stages

end Script

end PocketBasic.Command
