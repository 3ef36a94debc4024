import PocketBasic.Proofs.Program.Reading

/-!
# Writing a program as lexemes

Every expression is written with parentheses only where its level is looser than the one its place
asks for. A statement is a line of its own. An expression that is a whole statement must not start with
a keyword, so a leading name that is one stands in parentheses.
-/

namespace PocketBasic

/-- The levels of an expression, from loose to tight. -/
inductive Level where
  | assignment
  | sum
  | product
  | comparison
  | operand
deriving DecidableEq

def Level.rank : Level → Nat
  | .assignment => 0
  | .sum => 1
  | .product => 2
  | .comparison => 3
  | .operand => 4

namespace BinaryOp

def level : BinaryOp → Level
  | .add | .sub | .and | .or => .sum
  | .mul | .div | .mod => .product
  | .eq | .ne | .gt | .lt | .ge | .le => .comparison

/-- Operators of one level are grouped to the left. A comparison takes operands on both sides. -/
def leftLevel (op : BinaryOp) : Level :=
  match op.level with
  | .comparison => .operand
  | level => level

def rightLevel (op : BinaryOp) : Level :=
  match op.level with
  | .sum => .product
  | .product => .comparison
  | _ => .operand

def lexemes : BinaryOp → List Lexeme
  | .add => [.operator .plus]
  | .sub => [.operator .minus]
  | .and => [.identifier "and"]
  | .or => [.identifier "or"]
  | .mul => [.operator .times]
  | .div => [.operator .slash]
  | .mod => [.operator .percent]
  | .eq => [.comparison .equals]
  | .ne => [.comparison .bang, .comparison .equals]
  | .gt => [.comparison .greater]
  | .lt => [.comparison .less]
  | .ge => [.comparison .greaterEquals]
  | .le => [.comparison .lessEquals]

end BinaryOp

/-- The words that start a statement, in lower case. -/
def keywords : List String :=
  ["if", "then", "else", "end", "clrhome", "while", "repeat", "for", "disp", "output", "input",
    "prompt", "pause", "menu", "lbl", "goto", "prgm"]

/-- How numbers, labels and program names are spelled. A label is a word, or a number that rounds to
it. -/
structure Spelling where
  number : Float → String
  label : String → Lexeme
  program : String → Lexeme
  label_eq : ∀ name, (label name).label? = some name
  program_eq : ∀ name, (program name).programName? = some name

def bracketed (xs : List Lexeme) : List Lexeme := .openParen :: (xs ++ [.closeParen])

def bracketedIf (b : Bool) (xs : List Lexeme) : List Lexeme := if b then bracketed xs else xs

def commaSeparated : List (List Lexeme) → List Lexeme
  | [] => []
  | [xs] => xs
  | xs :: more => xs ++ .comma :: commaSeparated more

def Expr.level : Expr → Level
  | .number .. | .text .. | .name .. | .call .. => .operand
  | .binary _ op _ _ => op.level
  | .assign .. => .assignment

mutual

/-- The lexemes of an expression in a place of some level. `leading` marks the start of a statement. -/
def Expr.lexemes (sp : Spelling) (leading : Bool) (place : Level) : Expr → List Lexeme
  | .number _ value => [.number (sp.number value) value]
  | .text _ value => [.string value]
  | .name _ id =>
    bracketedIf (leading && keywords.contains id.toLower) [.identifier id]
  | .binary _ op left right =>
    let inside : Bool := op.level.rank < place.rank
    bracketedIf inside (left.lexemes sp (leading && !inside) op.leftLevel ++ op.lexemes ++
      right.lexemes sp false op.rightLevel)
  | .assign _ value _ target =>
    let inside : Bool := Level.assignment.rank < place.rank
    bracketedIf inside (value.lexemes sp (leading && !inside) .sum ++
      [.assignment, .identifier target])
  | .call _ function args =>
    function.lexemes sp leading .operand ++
      bracketed (commaSeparated (Expr.lexemesEach sp args))

def Expr.lexemesEach (sp : Spelling) : List Expr → List (List Lexeme)
  | [] => []
  | x :: xs => x.lexemes sp false .assignment :: Expr.lexemesEach sp xs

end

mutual

/-- The expression as it is read from one line. -/
def Expr.onLine (line : Nat) : Expr → Expr
  | .number _ value => .number line value
  | .text _ value => .text line value
  | .name _ id => .name line id
  | .binary _ op left right => .binary line op (left.onLine line) (right.onLine line)
  | .assign _ value _ target => .assign line (value.onLine line) line target
  | .call _ function args => .call line (function.onLine line) (Expr.onLineEach line args)

def Expr.onLineEach (line : Nat) : List Expr → List Expr
  | [] => []
  | x :: xs => x.onLine line :: Expr.onLineEach line xs

end

/-- Induction on an expression, with the arguments of a call taken one by one. -/
@[induction_eliminator]
theorem Expr.induct {P : Expr → Prop} (number : ∀ line value, P (.number line value))
    (text : ∀ line value, P (.text line value)) (name : ∀ line id, P (.name line id))
    (binary : ∀ line op left right, P left → P right → P (.binary line op left right))
    (assign : ∀ line value targetLine target, P value → P (.assign line value targetLine target))
    (call : ∀ line function args, P function → (∀ x ∈ args, P x) → P (.call line function args))
    (x : Expr) : P x :=
  @Expr.rec P (fun args => ∀ x ∈ args, P x) number text name binary assign call (by simp)
    (fun _ _ hx hxs => List.forall_mem_cons.mpr ⟨hx, hxs⟩) x

namespace Expr

theorem lexemesEach_eq_map (sp : Spelling) (xs : List Expr) :
    lexemesEach sp xs = xs.map (·.lexemes sp false .assignment) := by
  induction xs with
  | nil => rfl
  | cons x xs ih => rw [lexemesEach, ih, List.map_cons]

theorem onLineEach_eq_map (line : Nat) (xs : List Expr) :
    onLineEach line xs = xs.map (·.onLine line) := by
  induction xs with
  | nil => rfl
  | cons x xs ih => rw [onLineEach, ih, List.map_cons]

variable {sp : Spelling} {x : Expr} {leading : Bool} {place : Level}

/-- In a place that asks for a tighter level an expression stands in parentheses. -/
theorem lexemes_of_lt (h : x.level.rank < place.rank) :
    x.lexemes sp leading place = bracketed (x.lexemes sp false .assignment) := by
  have htop (level : Level) : ¬ Level.operand.rank < level.rank := by
    cases level <;> decide
  cases x with
  | number line value => exact absurd h (htop place)
  | text line value => exact absurd h (htop place)
  | name line id => exact absurd h (htop place)
  | call line function args => exact absurd h (htop place)
  | binary line op left right =>
    have hin : op.level.rank < place.rank := h
    have hout : ¬ op.level.rank < Level.assignment.rank := Nat.not_lt_zero _
    simp [lexemes, hin, hout, bracketedIf]
  | assign line value targetLine target =>
    have hin : Level.assignment.rank < place.rank := h
    simp [lexemes, hin, bracketedIf]

/-- In any other place it is written as it would be at its own level. -/
theorem lexemes_of_le (h : place.rank ≤ x.level.rank) :
    x.lexemes sp leading place = x.lexemes sp leading x.level := by
  cases x with
  | number line value => rfl
  | text line value => rfl
  | name line id => rfl
  | call line function args => rfl
  | binary line op left right =>
    have hle : place.rank ≤ op.level.rank := h
    simp [lexemes, level, bracketedIf, Nat.not_lt.mpr hle]
  | assign line value targetLine target =>
    have hle : place.rank ≤ Level.assignment.rank := h
    simp [lexemes, level, bracketedIf, Nat.not_lt.mpr hle]

theorem lexemes_binary (line : Nat) (op : BinaryOp) (left right : Expr) :
    (binary line op left right).lexemes sp leading op.level =
      left.lexemes sp leading op.leftLevel ++ op.lexemes ++
        right.lexemes sp false op.rightLevel := by
  simp [lexemes, bracketedIf]

theorem lexemes_assign (line : Nat) (value : Expr) (targetLine : Nat) (target : String) :
    (assign line value targetLine target).lexemes sp leading .assignment =
      value.lexemes sp leading .sum ++ [.assignment, .identifier target] := by
  simp [lexemes, bracketedIf]

end Expr

def MenuOption.lexemes (sp : Spelling) (o : MenuOption) : List Lexeme :=
  o.text.lexemes sp false .assignment ++ [.comma, sp.label o.label]

def Command.lexemes (sp : Spelling) : Command → List Lexeme
  | .compute x => x.lexemes sp true .assignment
  | .label name => [.identifier "Lbl", sp.label name]
  | .goto name => [.identifier "Goto", sp.label name]
  | .whileLoop cond => .identifier "While" :: cond.lexemes sp false .assignment
  | .repeatLoop cond => .identifier "Repeat" :: cond.lexemes sp false .assignment
  | .forLoop var start stop step =>
    .identifier "For" :: bracketed (commaSeparated
      ([.identifier var] :: Expr.lexemesEach sp [start, stop, step]))
  | .ifTest cond => .identifier "If" :: cond.lexemes sp false .assignment
  | .thenMark => [.identifier "Then"]
  | .elseMark => [.identifier "Else"]
  | .endMark => [.identifier "End"]
  | .disp args => .identifier "Disp" :: commaSeparated (Expr.lexemesEach sp args)
  | .output row col value =>
    .identifier "Output" :: bracketed (commaSeparated (Expr.lexemesEach sp [row, col, value]))
  | .clearHome => [.identifier "ClrHome"]
  | .input none var => [.identifier "Input", .identifier var]
  | .input (some x) var =>
    .identifier "Input" :: (x.lexemes sp false .assignment ++ [.comma, .identifier var])
  | .prompt vars => .identifier "Prompt" :: commaSeparated (vars.map fun v => [.identifier v])
  | .pause none => [.identifier "Pause"]
  | .pause (some x) => .identifier "Pause" :: x.lexemes sp false .assignment
  | .menu title options =>
    .identifier "Menu" :: bracketed (commaSeparated
      (title.lexemes sp false .assignment :: options.map (MenuOption.lexemes sp)))
  | .program name => [.identifier "Prgm", sp.program name]

def Command.onLine (line : Nat) : Command → Command
  | .compute x => .compute (x.onLine line)
  | .whileLoop cond => .whileLoop (cond.onLine line)
  | .repeatLoop cond => .repeatLoop (cond.onLine line)
  | .forLoop var start stop step =>
    .forLoop var (start.onLine line) (stop.onLine line) (step.onLine line)
  | .ifTest cond => .ifTest (cond.onLine line)
  | .disp args => .disp (args.map (·.onLine line))
  | .output row col value => .output (row.onLine line) (col.onLine line) (value.onLine line)
  | .input text var => .input (text.map (·.onLine line)) var
  | .pause value => .pause (value.map (·.onLine line))
  | .menu title options =>
    .menu (title.onLine line) (options.map fun o => ⟨o.text.onLine line, o.label⟩)
  | command => command

namespace Program

/-- The lexemes of statements from a line on, one statement to a line. -/
def lexemesFrom (sp : Spelling) (line : Nat) : List Statement → List (Nat × Lexeme)
  | [] => []
  | s :: rest => (s.command.lexemes sp).map (line, ·) ++ lexemesFrom sp (line + 1) rest

def onLinesFrom (line : Nat) : List Statement → List Statement
  | [] => []
  | s :: rest => ⟨line, s.command.onLine line⟩ :: onLinesFrom (line + 1) rest

/-- The same program with one statement to a line. -/
def onLines (p : Program) : Program := ⟨onLinesFrom 1 p.statements, p.labels⟩

/-- The tokens are the written form of the program, at any columns. -/
def WrittenAs (p : Program) (sp : Spelling) (tokens : List Token) : Prop :=
  tokens.map (fun t => (t.line, t.lexeme)) = lexemesFrom sp 1 p.statements

/-- Every Prompt names a variable, and the table holds the labels, which are distinct. -/
structure WellFormed (p : Program) : Prop where
  prompt : ∀ s ∈ p.statements, s.command.NamesVariable
  distinct : ((declaredLabels 0 p.statements).map Prod.fst).Nodup
  labels : p.labels = declaredLabels 0 p.statements

end Program

end PocketBasic
