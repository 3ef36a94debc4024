import PocketBasic.Machine.Memory
import PocketBasic.Program.Expr

/-!
# Evaluation of expressions

Operands and arguments are evaluated once each, from left to right, also those of `and` and `or`.
Evaluation never fails: what is not a function gives null when it is called.
-/

namespace PocketBasic

def BinaryOp.apply (op : BinaryOp) (a b : Value) : Value :=
  match op with
  | .add => .number (a.toNumber + b.toNumber)
  | .sub => .number (a.toNumber - b.toNumber)
  | .mul => .number (a.toNumber * b.toNumber)
  | .div => .number (a.toNumber / b.toNumber)
  | .mod => .number (Number.remainder a.toNumber b.toNumber)
  | .and => .bool (a.truthy && b.truthy)
  | .or => .bool (a.truthy || b.truthy)
  | .eq => .bool (a.same b)
  | .ne => .bool (!a.same b)
  | .gt => .bool (b.toNumber < a.toNumber)
  | .lt => .bool (a.toNumber < b.toNumber)
  | .ge => .bool (b.toNumber ≤ a.toNumber)
  | .le => .bool (a.toNumber ≤ b.toNumber)

/-- The argument at a position as a number; NaN where there is none. -/
def argument (args : List Value) (i : Nat) : Float :=
  match args[i]? with
  | some v => v.toNumber
  | none => Number.notANumber

def Builtin.unary? : Builtin → Option (Float → Float)
  | .sin => some Float.sin
  | .cos => some Float.cos
  | .tan => some Float.tan
  | .arcsin => some Float.asin
  | .arccos => some Float.acos
  | .arctan => some Float.atan
  | .log => some Float.log10
  | .ln => some Float.log
  | .sqrt => some Float.sqrt
  | .random => none

/-- Calls a function. `random` takes the next random number into the range of its arguments. -/
def Builtin.call (f : Builtin) (args : List Value) (m : Memory) : Value × Memory :=
  match f.unary? with
  | some g => (.number (g (argument args 0)), m)
  | none =>
    let low := argument args 0
    let high := argument args 1
    let (r, dice) := m.dice.roll
    (.number (low + r * (high - low)), { m with dice := dice })

def Value.call (v : Value) (args : List Value) (m : Memory) : Value × Memory :=
  match v with
  | .function f => f.call args m
  | _ => (.null, m)

mutual

def Expr.eval : Expr → Memory → Value × Memory
  | .number _ value, m => (.number value, m)
  | .text _ value, m => (.string value, m)
  | .name _ id, m => m.lookup id
  | .binary _ op left right, m =>
    let (a, m₁) := left.eval m
    let (b, m₂) := right.eval m₁
    (op.apply a b, m₂)
  | .assign _ value _ target, m =>
    let (v, m₁) := value.eval m
    (v, m₁.set target v)
  | .call _ function args, m =>
    let (f, m₁) := function.eval m
    let (vs, m₂) := Expr.evalList args m₁
    f.call vs m₂

def Expr.evalList : List Expr → Memory → List Value × Memory
  | [], m => ([], m)
  | x :: xs, m =>
    let (v, m₁) := x.eval m
    let (vs, m₂) := Expr.evalList xs m₁
    (v :: vs, m₂)

end

end PocketBasic
