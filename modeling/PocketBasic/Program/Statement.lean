import PocketBasic.Program.Expr

/-!
# Statements and programs

A program is a flat list of statements. Loops and branches are pairs of markers in that list, not
nested trees, so that a jump can enter and leave them anywhere.
-/

namespace PocketBasic

structure MenuOption where
  text : Expr
  label : String

inductive Command where
  | compute (x : Expr)
  | label (name : String)
  | goto (name : String)
  | whileLoop (cond : Expr)
  | repeatLoop (cond : Expr)
  | forLoop (var : String) (start stop step : Expr)
  | ifTest (cond : Expr)
  | thenMark
  | elseMark
  | endMark
  | disp (args : List Expr)
  | output (row col value : Expr)
  | clearHome
  | input (prompt : Option Expr) (var : String)
  | prompt (vars : List String)
  | pause (value : Option Expr)
  | menu (title : Expr) (options : List MenuOption)
  | program (name : String)

structure Statement where
  line : Nat
  command : Command

abbrev LabelTable := List (String × Nat)

def LabelTable.find? (t : LabelTable) (name : String) : Option Nat := t.lookup name

structure Program where
  statements : List Statement
  labels : LabelTable

def Program.length (p : Program) : Nat := p.statements.length

end PocketBasic
