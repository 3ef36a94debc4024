import PocketBasic.Number.Shortest
import PocketBasic.Program.Fault
import PocketBasic.Program.Statement
import PocketBasic.Program.Token

/-!
# From tokens to statements

Recursive descent over the token list. From loose to tight the levels of an expression are
assignment, sum (with `and` and `or`), product, a single comparison, call and term. An operator, a
call or a comma of an argument list continues an expression only on the line of the token before it.

Recursion is on a bound for the number of tokens left, which every step that goes deeper lowers. A
reader with bound `n` reads any list of at most `n` tokens as far as one with a larger bound.
-/

namespace PocketBasic

structure Cursor where
  line : Nat
  rest : List Token

namespace Cursor

/-- The next token, if it stands on the line of the token read last. -/
def sameLine? (c : Cursor) : Option Token :=
  match c.rest with
  | t :: _ => if t.line = c.line then some t else none
  | [] => none

def advance (c : Cursor) : Cursor :=
  match c.rest with
  | t :: ts => ⟨t.line, ts⟩
  | [] => c

def unexpected (c : Cursor) (expected : String) : Fault :=
  match c.rest with
  | t :: _ => .unexpectedToken t.line t.col expected t.lexeme.describe
  | [] => .unexpectedEnd c.line expected

end Cursor

abbrev Reader := StateT Cursor (Except Fault)

namespace Reader

def fail {α : Type} (expected : String) : Reader α :=
  fun c => .error (c.unexpected expected)

def expect {α : Type} (f : Lexeme → Option α) (expected : String) : Reader α :=
  fun c => match c.rest with
    | t :: ts => match f t.lexeme with
      | some a => .ok (a, ⟨t.line, ts⟩)
      | none => .error (c.unexpected expected)
    | [] => .error (c.unexpected expected)

def accept? {α : Type} (f : Lexeme → Option α) : Reader (Option α) :=
  fun c => match c.rest with
    | t :: ts => match f t.lexeme with
      | some a => .ok (some a, ⟨t.line, ts⟩)
      | none => .ok (none, c)
    | [] => .ok (none, c)

/-- The same, for a token on the line of the one before it only. -/
def acceptSameLine? {α : Type} (f : Lexeme → Option α) : Reader (Option α) :=
  fun c => match c.sameLine?.bind fun t => f t.lexeme with
    | some a => .ok (some a, c.advance)
    | none => .ok (none, c)

def currentLine : Reader Nat := fun c => .ok (c.line, c)

def moreOnLine : Reader Bool := fun c => .ok (c.sameLine?.isSome, c)

end Reader

namespace Lexeme

def comma? : Lexeme → Option Unit
  | .comma => some ()
  | _ => none

def openParen? : Lexeme → Option Unit
  | .openParen => some ()
  | _ => none

def closeParen? : Lexeme → Option Unit
  | .closeParen => some ()
  | _ => none

def arrow? : Lexeme → Option Unit
  | .assignment => some ()
  | _ => none

def equals? : Lexeme → Option Unit
  | .comparison .equals => some ()
  | _ => none

def identifier? : Lexeme → Option String
  | .identifier name => some name
  | _ => none

def sumOp? : Lexeme → Option BinaryOp
  | .operator .plus => some .add
  | .operator .minus => some .sub
  | .identifier name =>
    if name.toLower = "and" then some .and
    else if name.toLower = "or" then some .or
    else none
  | _ => none

def productOp? : Lexeme → Option BinaryOp
  | .operator .times => some .mul
  | .operator .slash => some .div
  | .operator .percent => some .mod
  | _ => none

def comparison? : Lexeme → Option ComparisonSign
  | .comparison sign => some sign
  | _ => none

/-- Labels are words or numbers; a number is rounded to a whole one. -/
def label? : Lexeme → Option String
  | .identifier name => some name
  | .number _ value => some (Number.positionalText value.round)
  | _ => none

def programName? : Lexeme → Option String
  | .identifier name => some name
  | .string text => some text
  | _ => none

end Lexeme

namespace Reader

def comma : Reader Unit := expect Lexeme.comma? "Comma"
def openParen : Reader Unit := expect Lexeme.openParen? "\"(\""
def closeParen : Reader Unit := expect Lexeme.closeParen? "\")\""
def identifier : Reader String := expect Lexeme.identifier? "Identifier"
def label : Reader String := expect Lexeme.label? "label name"

/-- Operands joined by operators of one level, grouped to the left. -/
def leftChain (op? : Lexeme → Option BinaryOp) (operand : Reader Expr) :
    Nat → Expr → Reader Expr
  | 0, left => pure left
  | n + 1, left => do
    match ← acceptSameLine? op? with
    | none => pure left
    | some op =>
      let line ← currentLine
      let right ← operand
      leftChain op? operand n (.binary line op left right)

def commaList {α : Type} (item : Reader α) : Nat → Reader (List α)
  | 0 => do
    let x ← item
    pure [x]
  | n + 1 => do
    let x ← item
    match ← acceptSameLine? Lexeme.comma? with
    | none => pure [x]
    | some _ =>
      let xs ← commaList item n
      pure (x :: xs)

/-- At most one comparison. "Not equal" is a bang and then an equals sign. -/
def comparison (operand : Reader Expr) : Reader Expr := do
  let left ← operand
  match ← acceptSameLine? Lexeme.comparison? with
  | none => pure left
  | some sign =>
    let line ← currentLine
    let op ← match sign with
      | .equals => pure BinaryOp.eq
      | .greater => pure BinaryOp.gt
      | .less => pure BinaryOp.lt
      | .greaterEquals => pure BinaryOp.ge
      | .lessEquals => pure BinaryOp.le
      | .bang => do
        expect Lexeme.equals? "\"=\""
        pure BinaryOp.ne
    let right ← operand
    pure (.binary line op left right)

def product (operand : Reader Expr) (n : Nat) : Reader Expr := do
  let left ← comparison operand
  leftChain Lexeme.productOp? (comparison operand) n left

def sum (operand : Reader Expr) (n : Nat) : Reader Expr := do
  let left ← product operand n
  leftChain Lexeme.sumOp? (product operand n) n left

/-- A sum, and after an arrow the variable that takes its value. -/
def assignment (operand : Reader Expr) : Nat → Reader Expr
  | 0 => sum operand 0
  | n + 1 => do
    let value ← sum operand (n + 1)
    match ← acceptSameLine? Lexeme.arrow? with
    | none => pure value
    | some _ => fun c => match assignment operand n c with
      | .error e => .error e
      | .ok (.name line target, c') => .ok (.assign c.line value line target, c')
      | .ok _ => .error (c.unexpected "Identifier")

/-- A literal, a variable, an expression in parentheses or a negated operand. -/
def term (expr operand : Reader Expr) : Reader Expr :=
  fun c => match c.rest with
    | [] => .error (c.unexpected "expression")
    | t :: ts => match t.lexeme with
      | .number _ value => .ok (.number t.line value, ⟨t.line, ts⟩)
      | .string text => .ok (.text t.line text, ⟨t.line, ts⟩)
      | .identifier name => .ok (.name t.line name, ⟨t.line, ts⟩)
      | .openParen => (do
          let x ← expr
          closeParen
          pure x : Reader Expr) ⟨t.line, ts⟩
      | .operator .minus => (do
          let x ← operand
          pure (.binary t.line .sub (.number t.line 0) x) : Reader Expr) ⟨t.line, ts⟩
      | _ => .error (c.unexpected "expression")

def arguments (expr : Reader Expr) (n : Nat) : Reader (List Expr) := do
  match ← accept? Lexeme.closeParen? with
  | some _ => pure []
  | none =>
    let args ← commaList expr n
    closeParen
    pure args

/-- Any number of calls of what has been read so far. -/
def calls (expr : Reader Expr) : Nat → Expr → Reader Expr
  | 0, x => pure x
  | n + 1, x => do
    match ← acceptSameLine? Lexeme.openParen? with
    | none => pure x
    | some _ =>
      let line ← currentLine
      let args ← arguments expr n
      calls expr n (.call line x args)

/-- A term with the calls after it. -/
def operand : Nat → Reader Expr
  | 0 => fail "expression"
  | n + 1 => do
    let x ← term (assignment (operand n) n) (operand n)
    calls (assignment (operand n) n) n x

def expr (n : Nat) : Reader Expr := assignment (operand n) n

def forCommand (n : Nat) : Reader Command := do
  let line ← currentLine
  openParen
  let var ← identifier
  comma
  let start ← expr n
  comma
  let stop ← expr n
  let step ← match ← accept? Lexeme.comma? with
    | some _ => expr n
    | none => pure (.number line 1)
  closeParen
  pure (.forLoop var start stop step)

def outputCommand (n : Nat) : Reader Command := do
  openParen
  let row ← expr n
  comma
  let col ← expr n
  comma
  let value ← expr n
  let _ ← acceptSameLine? Lexeme.closeParen?
  pure (.output row col value)

/-- `Input variable` or `Input prompt, variable`. -/
def inputCommand (n : Nat) : Reader Command := do
  let line ← currentLine
  let first ← expr n
  match ← acceptSameLine? Lexeme.comma? with
  | some _ =>
    let var ← identifier
    pure (.input (some first) var)
  | none => match first with
    | .name _ var => pure (.input none var)
    | _ => throw (.unexpectedToken line 0 "Identifier" "expression")

def menuOptions (n : Nat) : Nat → Reader (List MenuOption)
  | 0 => pure []
  | k + 1 => do
    match ← acceptSameLine? Lexeme.comma? with
    | none => pure []
    | some _ =>
      let text ← expr n
      comma
      let target ← label
      let more ← menuOptions n k
      pure (⟨text, target⟩ :: more)

def menuCommand (n : Nat) : Reader Command := do
  openParen
  let title ← expr n
  let options ← menuOptions n n
  let _ ← acceptSameLine? Lexeme.closeParen?
  pure (.menu title options)

def dispCommand (n : Nat) : Reader Command := do
  if ← moreOnLine then
    let args ← commaList (expr n) n
    pure (.disp args)
  else pure (.disp [])

def pauseCommand (n : Nat) : Reader Command := do
  if ← moreOnLine then
    let value ← expr n
    pure (.pause (some value))
  else pure (.pause none)

/-- The rest of a statement that starts with a keyword, given in lower case. -/
def keyword? (n : Nat) (word : String) : Option (Reader Command) :=
  match word with
  | "if" => some (.ifTest <$> expr n)
  | "then" => some (pure .thenMark)
  | "else" => some (pure .elseMark)
  | "end" => some (pure .endMark)
  | "clrhome" => some (pure .clearHome)
  | "while" => some (.whileLoop <$> expr n)
  | "repeat" => some (.repeatLoop <$> expr n)
  | "for" => some (forCommand n)
  | "disp" => some (dispCommand n)
  | "output" => some (outputCommand n)
  | "input" => some (inputCommand n)
  | "prompt" => some (.prompt <$> commaList identifier n)
  | "pause" => some (pauseCommand n)
  | "menu" => some (menuCommand n)
  | "lbl" => some (.label <$> label)
  | "goto" => some (.goto <$> label)
  | "prgm" => some (.program <$> expect Lexeme.programName? "program name")
  | _ => none

/-- The reader for the statement that starts with token `t`. A keyword is read before it. -/
def commandAt (n : Nat) (t : Token) : Reader Command :=
  match t.lexeme with
  | .identifier name => match keyword? n name.toLower with
    | some command => fun c => command c.advance
    | none => .compute <$> expr n
  | _ => .compute <$> expr n

def statement (n : Nat) : Reader Statement :=
  fun c => match c.rest with
    | [] => .error (c.unexpected "expression")
    | t :: _ => (Statement.mk t.line <$> commandAt n t) c

def statements : Nat → Reader (List Statement)
  | 0 => pure []
  | n + 1 => fun c => match c.rest with
    | [] => .ok ([], c)
    | _ :: _ => (do
        let s ← statement (n + 1)
        let more ← statements n
        pure (s :: more) : Reader (List Statement)) c

end Reader

def readStatements (tokens : List Token) : Except Fault (List Statement) :=
  (Reader.statements tokens.length ⟨0, tokens⟩).map (·.1)

end PocketBasic
