import PocketBasic.Machine.Eval
import PocketBasic.Machine.State

/-!
# Nested programs and their meaning

A program without jumps can be written as a tree of statements, branches and loops. `Block` is this
tree, `Block.commands` its flat statement list and `Block.Runs` its meaning by recursion on the tree.
The meaning knows no program counter and no block stack: it relates the variables and the lines of
input before a run to those after it and to what the run shows.
-/

namespace PocketBasic

/-- The statements that neither jump nor open or close a block. A Prompt names a variable at least. -/
inductive Simple where
  | compute (x : Expr)
  | label (name : String)
  | disp (args : List Expr)
  | output (row col value : Expr)
  | clearHome
  | pause (value : Option Expr)
  | input (prompt : Option Expr) (var : String)
  | prompt (first : String) (others : List String)

inductive Block where
  | empty
  | sequence (first second : Block)
  | simple (c : Simple)
  /-- An If that guards a single statement. -/
  | guarded (cond : Expr) (c : Simple)
  | branch (cond : Expr) (yes : Block)
  | branchElse (cond : Expr) (yes no : Block)
  | whileLoop (cond : Expr) (body : Block)
  | repeatLoop (cond : Expr) (body : Block)
  | forLoop (var : String) (start stop step : Expr) (body : Block)

def Simple.command : Simple → Command
  | .compute x => .compute x
  | .label name => .label name
  | .disp args => .disp args
  | .output row col value => .output row col value
  | .clearHome => .clearHome
  | .pause value => .pause value
  | .input question var => .input question var
  | .prompt first others => .prompt (first :: others)

/-- The statements of a block in the order in which a program lists them. -/
def Block.commands : Block → List Command
  | .empty => []
  | .sequence first second => first.commands ++ second.commands
  | .simple c => [c.command]
  | .guarded cond c => [.ifTest cond, c.command]
  | .branch cond yes => [.ifTest cond, .thenMark] ++ yes.commands ++ [.endMark]
  | .branchElse cond yes no =>
    [.ifTest cond, .thenMark] ++ yes.commands ++ [.elseMark] ++ no.commands ++ [.endMark]
  | .whileLoop cond body => [.whileLoop cond] ++ body.commands ++ [.endMark]
  | .repeatLoop cond body => [.repeatLoop cond] ++ body.commands ++ [.endMark]
  | .forLoop var start stop step body =>
    [.forLoop var start stop step] ++ body.commands ++ [.endMark]

section Length

variable (cond : Expr) (var : String) (start stop step : Expr) (yes no body : Block)

theorem Block.length_branch :
    (Block.branch cond yes).commands.length = 2 + yes.commands.length + 1 := by
  simp only [commands, List.length_append, List.length_cons, List.length_nil]

theorem Block.length_branchElse : (Block.branchElse cond yes no).commands.length =
    2 + yes.commands.length + 1 + no.commands.length + 1 := by
  simp only [commands, List.length_append, List.length_cons, List.length_nil]

theorem Block.length_whileLoop :
    (Block.whileLoop cond body).commands.length = 1 + body.commands.length + 1 := by
  simp only [commands, List.length_append, List.length_cons, List.length_nil]

theorem Block.length_repeatLoop :
    (Block.repeatLoop cond body).commands.length = 1 + body.commands.length + 1 := by
  simp only [commands, List.length_append, List.length_cons, List.length_nil]

theorem Block.length_forLoop : (Block.forLoop var start stop step body).commands.length =
    1 + body.commands.length + 1 := by
  simp only [commands, List.length_append, List.length_cons, List.length_nil]

end Length

/-- What a run reads and changes: the memory and the lines of input not yet used. -/
structure World where
  memory : Memory
  lines : List String

namespace World

def eval (w : World) (x : Expr) : Value × World :=
  ((x.eval w.memory).1, { w with memory := (x.eval w.memory).2 })

def evalList (w : World) (xs : List Expr) : List Value × World :=
  ((Expr.evalList xs w.memory).1, { w with memory := (Expr.evalList xs w.memory).2 })

def lookup (w : World) (name : String) : Value × World :=
  ((w.memory.lookup name).1, { w with memory := (w.memory.lookup name).2 })

def set (w : World) (name : String) (v : Value) : World :=
  { w with memory := w.memory.set name v }

/-- Shows a prompt and binds a variable to the next line of input, if there is one. -/
def ask (w : World) (prompt name : String) : Option (List Signal × World) :=
  match w.lines with
  | [] => none
  | line :: rest => some ([.display (.string prompt)], ⟨w.memory.set name (.ofInput line), rest⟩)

def askAll (w : World) : List String → Option (List Signal × World)
  | [] => some ([], w)
  | name :: names => do
    let (shown, w₁) ← w.ask (name ++ "=?") name
    let (more, w₂) ← w₁.askAll names
    some (shown ++ more, w₂)

def test (w : World) (cond : Expr) : Bool × World :=
  ((w.eval cond).1.truthy, (w.eval cond).2)

/-- Whether the variable of a loop has not passed the end, in the direction of the step. -/
def inside (w : World) (var : String) (stop step : Expr) : Bool × World :=
  let (v, w₁) := w.lookup var
  let (last, w₂) := w₁.eval stop
  let (d, w₃) := w₂.eval step
  (if d.toNumber < 0 then last.toNumber ≤ v.toNumber else v.toNumber ≤ last.toNumber, w₃)

theorem lines_of_test {w w₁ : World} {cond : Expr} {b : Bool} (h : w.test cond = (b, w₁)) :
    w₁.lines = w.lines := by
  cases h
  rfl

theorem lines_of_inside {w w₁ : World} {var : String} {stop step : Expr} {b : Bool}
    (h : w.inside var stop step = (b, w₁)) : w₁.lines = w.lines := by
  have hw : (w.inside var stop step).2 = w₁ := congrArg Prod.snd h
  rw [← hw]
  rfl

/-- Adds the step to the variable of a loop. -/
def advance (w : World) (var : String) (step : Expr) : World :=
  let (d, w₁) := w.eval step
  let (v, w₂) := w₁.lookup var
  w₂.set var (.number (v.toNumber + d.toNumber))

end World

/-- The signals of a run of a simple statement and the world after it. A run that asks for more lines
than there are has none. -/
def Simple.exec (w : World) : Simple → Option (List Signal × World)
  | .compute x => some ([], (w.eval x).2.set Memory.answerName (w.eval x).1)
  | .label _ => some ([], w)
  | .disp args => some ((w.evalList args).1.map .display, (w.evalList args).2)
  | .output row col value =>
    let (r, w₁) := w.eval row
    let (c, w₂) := w₁.eval col
    let (v, w₃) := w₂.eval value
    some ([.output (Number.toPosition r.toNumber) (Number.toPosition c.toNumber) v], w₃)
  | .clearHome => some ([.clear], w)
  | .pause none => some ([], w)
  | .pause (some x) => some ([.display (w.eval x).1], (w.eval x).2)
  | .input none var => w.ask "?" var
  | .input (some x) var => (w.eval x).2.ask (w.eval x).1.text var
  | .prompt first others => w.askAll (first :: others)

/-- The runs of a piece of a program: the world before, the signals, and the world after. -/
abbrev Effect := World → List Signal → World → Prop

namespace Effect

def nothing : Effect := fun w shown w' => shown = [] ∧ w' = w

def followedBy (a b : Effect) : Effect := fun w shown w' =>
  ∃ first w₁ second, a w first w₁ ∧ b w₁ second w' ∧ shown = first ++ second

def choose (cond : Expr) (yes no : Effect) : Effect := fun w shown w' =>
  ∃ w₁, w.test cond = (true, w₁) ∧ yes w₁ shown w' ∨ w.test cond = (false, w₁) ∧ no w₁ shown w'

inductive WhileRuns (cond : Expr) (body : Effect) : Effect where
  | stop {w w₁ : World} (test : w.test cond = (false, w₁)) : WhileRuns cond body w [] w₁
  | again {w w₁ w₂ w₃ : World} {shown more : List Signal} (test : w.test cond = (true, w₁))
      (once : body w₁ shown w₂) (rest : WhileRuns cond body w₂ more w₃) :
      WhileRuns cond body w (shown ++ more) w₃

/-- Tests after the body, and stops when the condition holds. -/
inductive RepeatRuns (cond : Expr) (body : Effect) : Effect where
  | stop {w w₁ w₂ : World} {shown : List Signal} (once : body w shown w₁)
      (test : w₁.test cond = (true, w₂)) : RepeatRuns cond body w shown w₂
  | again {w w₁ w₂ w₃ : World} {shown more : List Signal} (once : body w shown w₁)
      (test : w₁.test cond = (false, w₂)) (rest : RepeatRuns cond body w₂ more w₃) :
      RepeatRuns cond body w (shown ++ more) w₃

/-- A For loop whose variable is set. It tests before the body and once more after it, and only then
adds the step. -/
inductive ForRuns (var : String) (stop step : Expr) (body : Effect) : Effect where
  | none {w w₁ : World} (test : w.inside var stop step = (false, w₁)) :
      ForRuns var stop step body w [] w₁
  | last {w w₁ w₂ w₃ : World} {shown : List Signal} (test : w.inside var stop step = (true, w₁))
      (once : body w₁ shown w₂) (retest : w₂.inside var stop step = (false, w₃)) :
      ForRuns var stop step body w shown w₃
  | again {w w₁ w₂ w₃ w₄ : World} {shown more : List Signal}
      (test : w.inside var stop step = (true, w₁)) (once : body w₁ shown w₂)
      (retest : w₂.inside var stop step = (true, w₃))
      (rest : ForRuns var stop step body (w₃.advance var step) more w₄) :
      ForRuns var stop step body w (shown ++ more) w₄

end Effect

def Simple.Runs (c : Simple) : Effect := fun w shown w' => c.exec w = some (shown, w')

def Block.Runs : Block → Effect
  | .empty => .nothing
  | .sequence first second => first.Runs.followedBy second.Runs
  | .simple c => c.Runs
  | .guarded cond c => .choose cond c.Runs .nothing
  | .branch cond yes => .choose cond yes.Runs .nothing
  | .branchElse cond yes no => .choose cond yes.Runs no.Runs
  | .whileLoop cond body => .WhileRuns cond body.Runs
  | .repeatLoop cond body => .RepeatRuns cond body.Runs
  | .forLoop var start stop step body => fun w shown w' =>
    Effect.ForRuns var stop step body.Runs
      ((w.eval start).2.set var (.number (w.eval start).1.toNumber)) shown w'

end PocketBasic
