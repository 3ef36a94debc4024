import PocketBasic.Machine.Eval

/-!
# The order of an evaluation

The acts of an expression are the work of its nodes, one after another: a literal or a name puts a value on
a stack, and an operator, an assignment or a call takes its operands from there. Every node stands in the
list once, behind its operands, and the operands stand from left to right. `perform_acts` says that an
evaluation does just these acts in this order, whatever the values are.
-/

namespace PocketBasic

inductive Act where
  | literal (v : Value)
  | read (name : String)
  | combine (op : BinaryOp)
  | bind (target : String)
  | call (arity : Nat)

mutual

def Expr.acts : Expr → List Act
  | .number _ value => [.literal (.number value)]
  | .text _ value => [.literal (.string value)]
  | .name _ id => [.read id]
  | .binary _ op left right => left.acts ++ right.acts ++ [.combine op]
  | .assign _ value _ target => value.acts ++ [.bind target]
  | .call _ function args => function.acts ++ Expr.actsList args ++ [.call args.length]

def Expr.actsList : List Expr → List Act
  | [] => []
  | x :: xs => x.acts ++ Expr.actsList xs

end

/-- The values that are still to be used, the newest first, and the memory. -/
structure Scratch where
  values : List Value
  memory : Memory

/-- Does one act. An act that finds too few values does nothing. -/
def Act.perform (w : Scratch) : Act → Scratch
  | .literal v => ⟨v :: w.values, w.memory⟩
  | .read name =>
    let (v, m) := w.memory.lookup name
    ⟨v :: w.values, m⟩
  | .combine op => match w.values with
    | b :: a :: rest => ⟨op.apply a b :: rest, w.memory⟩
    | _ => w
  | .bind target => match w.values with
    | v :: _ => ⟨w.values, w.memory.set target v⟩
    | [] => w
  | .call arity => match w.values.drop arity with
    | f :: rest =>
      let (v, m) := f.call (w.values.take arity).reverse w.memory
      ⟨v :: rest, m⟩
    | [] => w

def Act.performAll (w : Scratch) (acts : List Act) : Scratch := acts.foldl Act.perform w

namespace Act

variable {w : Scratch} {m : Memory} {values : List Value}

@[simp] theorem performAll_nil (w : Scratch) : performAll w [] = w := rfl

@[simp] theorem performAll_cons (w : Scratch) (a : Act) (acts : List Act) :
    performAll w (a :: acts) = performAll (a.perform w) acts := rfl

@[simp] theorem performAll_append (w : Scratch) (acts more : List Act) :
    performAll w (acts ++ more) = performAll (performAll w acts) more :=
  List.foldl_append

end Act

theorem length_evalList (xs : List Expr) (m : Memory) : (Expr.evalList xs m).1.length = xs.length := by
  induction xs generalizing m with
  | nil => rfl
  | cons x xs ih => simp only [Expr.evalList, List.length_cons, ih]

theorem perform_call (f : Value) (args values : List Value) (m : Memory) :
    (Act.call args.length).perform ⟨args.reverse ++ f :: values, m⟩ =
      ⟨(f.call args m).1 :: values, (f.call args m).2⟩ := by
  have hdrop : (args.reverse ++ f :: values).drop args.length = f :: values := by
    rw [← List.length_reverse, List.drop_left]
  have htake : (args.reverse ++ f :: values).take args.length = args.reverse := by
    rw [← List.length_reverse, List.take_left]
  simp only [Act.perform, hdrop, htake, List.reverse_reverse]

mutual

/-- Evaluating an expression is performing its acts, which put its value on the stack. -/
theorem perform_acts : (x : Expr) → (w : Scratch) →
    Act.performAll w x.acts = ⟨(x.eval w.memory).1 :: w.values, (x.eval w.memory).2⟩
  | .number _ _, _ | .text _ _, _ | .name _ _, _ => rfl
  | .binary _ op left right, w => by
    simp only [Expr.acts, Act.performAll_append, perform_acts left, perform_acts right]
    rfl
  | .assign _ value _ target, w => by
    simp only [Expr.acts, Act.performAll_append, perform_acts value]
    rfl
  | .call _ function args, w => by
    simp only [Expr.acts, Act.performAll_append, perform_acts function, perform_actsList args]
    rw [← length_evalList args (function.eval w.memory).2]
    exact perform_call _ _ _ _

theorem perform_actsList : (xs : List Expr) → (w : Scratch) →
    Act.performAll w (Expr.actsList xs) =
      ⟨(Expr.evalList xs w.memory).1.reverse ++ w.values, (Expr.evalList xs w.memory).2⟩
  | [], _ => rfl
  | x :: xs, w => by
    simp only [Expr.actsList, Act.performAll_append, perform_acts x, perform_actsList xs,
      Expr.evalList, List.reverse_cons, List.append_assoc, List.singleton_append]

end

end PocketBasic
