import PocketBasic.Program.Scan
import PocketBasic.Program.Syntax

/-!
# Compilation

A source text becomes a program: its tokens, its statements and the table of its labels, each of
which may be declared once.
-/

namespace PocketBasic

def LabelTable.collect (t : LabelTable) (i : Nat) : List Statement → Except Fault LabelTable
  | [] => .ok t
  | s :: rest => match s.command with
    | .label name =>
      if (t.find? name).isSome then .error (.duplicateLabel s.line name)
      else LabelTable.collect (t ++ [(name, i)]) (i + 1) rest
    | _ => LabelTable.collect t (i + 1) rest

namespace Program

def ofStatements (statements : List Statement) : Except Fault Program :=
  (LabelTable.collect [] 0 statements).map (⟨statements, ·⟩)

def ofTokens (tokens : List Token) : Except Fault Program :=
  (readStatements tokens).bind ofStatements

def compile (source : String) : Except Fault Program :=
  (scan source).bind ofTokens

end Program

end PocketBasic
