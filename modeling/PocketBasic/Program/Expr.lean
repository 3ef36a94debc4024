/-!
# Expressions

The tree of an expression. Every node knows the line it stands on.
-/

namespace PocketBasic

inductive BinaryOp where
  | add
  | sub
  | mul
  | div
  | mod
  | and
  | or
  | eq
  | ne
  | gt
  | lt
  | ge
  | le
deriving DecidableEq, Repr

def BinaryOp.symbol : BinaryOp → String
  | .add => "+"
  | .sub => "-"
  | .mul => "*"
  | .div => "/"
  | .mod => "%"
  | .and => "and"
  | .or => "or"
  | .eq => "="
  | .ne => "!="
  | .gt => ">"
  | .lt => "<"
  | .ge => ">="
  | .le => "<="

inductive Expr where
  | number (line : Nat) (value : Float)
  | text (line : Nat) (value : String)
  | name (line : Nat) (id : String)
  | binary (line : Nat) (op : BinaryOp) (left right : Expr)
  /-- `value -> target`. The target is a variable by construction. -/
  | assign (line : Nat) (value : Expr) (targetLine : Nat) (target : String)
  | call (line : Nat) (function : Expr) (args : List Expr)

def Expr.line : Expr → Nat
  | .number line _ => line
  | .text line _ => line
  | .name line _ => line
  | .binary line .. => line
  | .assign line .. => line
  | .call line .. => line

end PocketBasic
