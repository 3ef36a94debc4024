import PocketBasic.Program.Compile

/-!
# Reading by position

The grammar of programs once more, over a list of tokens and a position in it that nothing keeps in range and
nothing makes advance. Asking for a token past the end is a result of its own, and so is not to have come to
an end when calls are nested `n` deep.
-/

namespace PocketBasic

inductive Halt where
  | fault (e : Fault)
  /-- A token past the end was asked for. -/
  | overrun
  /-- Calls were nested as deep as they may. -/
  | unfinished

abbrev Indexed := StateT Nat (Except Halt)

namespace Indexed

variable {α : Type} (tokens : List Token)

def tokenAt (i : Nat) : Indexed Token :=
  match tokens[i]? with
  | some t => pure t
  | none => throw .overrun

def atEnd : Indexed Bool := do
  return decide (tokens.length ≤ (← get))

def current : Indexed Token := do
  tokenAt tokens (← get)

def next : Indexed Token := do
  let t ← current tokens
  modify (· + 1)
  pure t

/-- The next token stands on the line of the one before it. -/
def sameLine : Indexed Bool := do
  let i ← get
  if tokens.length ≤ i ∨ i = 0 then pure false
  else do
    let t ← tokenAt tokens i
    let u ← tokenAt tokens (i - 1)
    pure (decide (t.line = u.line))

def line : Indexed Nat := do
  if ← atEnd tokens then
    if tokens.length = 0 then pure 0
    else do
      let t ← tokenAt tokens (tokens.length - 1)
      pure t.line
  else do
    let t ← current tokens
    pure t.line

def unexpected (expected : String) : Indexed α := do
  let line ← line tokens
  if ← atEnd tokens then throw (.fault (.unexpectedEnd line expected))
  else do
    let t ← current tokens
    throw (.fault (.unexpectedToken line t.col expected t.lexeme.describe))

def check (f : Lexeme → Option α) : Indexed (Option α) := do
  if ← atEnd tokens then pure none
  else do
    let t ← current tokens
    pure (f t.lexeme)

def accept? (f : Lexeme → Option α) : Indexed (Option (Token × α)) := do
  match ← check tokens f with
  | none => pure none
  | some a => do
    let t ← next tokens
    pure (some (t, a))

def acceptSameLine? (f : Lexeme → Option α) : Indexed (Option (Token × α)) := do
  if ← sameLine tokens then accept? tokens f else pure none

def expect (f : Lexeme → Option α) (expected : String) : Indexed α := do
  match ← check tokens f with
  | none => unexpected tokens expected
  | some a => do
    let _ ← next tokens
    pure a

def comma : Indexed Unit := expect tokens Lexeme.comma? "Comma"
def openParen : Indexed Unit := expect tokens Lexeme.openParen? "\"(\""
def closeParen : Indexed Unit := expect tokens Lexeme.closeParen? "\")\""
def identifier : Indexed String := expect tokens Lexeme.identifier? "Identifier"
def label : Indexed String := expect tokens Lexeme.label? "label name"

/-- "Not equal" is a bang and then an equals sign. -/
def comparisonOp : ComparisonSign → Indexed BinaryOp
  | .equals => pure .eq
  | .greater => pure .gt
  | .less => pure .lt
  | .greaterEquals => pure .ge
  | .lessEquals => pure .le
  | .bang => do
    expect tokens Lexeme.equals? "\"=\""
    pure .ne

mutual

/-- A sum, and after an arrow the variable that takes its value. Without one the fault is reported for what
stands behind the arrow. -/
def expr : Nat → Indexed Expr
  | 0 => throw .unfinished
  | n + 1 => do
    let value ← sum n
    match ← acceptSameLine? tokens Lexeme.arrow? with
    | none => pure value
    | some (arrow, _) => do
      let target ← get
      match ← expr n with
      | .name line name => pure (.assign arrow.line value line name)
      | _ => do
        set target
        unexpected tokens "Identifier"

def sum : Nat → Indexed Expr
  | 0 => throw .unfinished
  | n + 1 => do
    let left ← product n
    sumFrom n left

def sumFrom : Nat → Expr → Indexed Expr
  | 0, _ => throw .unfinished
  | n + 1, left => do
    match ← acceptSameLine? tokens Lexeme.sumOp? with
    | none => pure left
    | some (t, op) => do
      let right ← product n
      sumFrom n (.binary t.line op left right)

def product : Nat → Indexed Expr
  | 0 => throw .unfinished
  | n + 1 => do
    let left ← comparison n
    productFrom n left

def productFrom : Nat → Expr → Indexed Expr
  | 0, _ => throw .unfinished
  | n + 1, left => do
    match ← acceptSameLine? tokens Lexeme.productOp? with
    | none => pure left
    | some (t, op) => do
      let right ← comparison n
      productFrom n (.binary t.line op left right)

def comparison : Nat → Indexed Expr
  | 0 => throw .unfinished
  | n + 1 => do
    let left ← operand n
    match ← acceptSameLine? tokens Lexeme.comparison? with
    | none => pure left
    | some (t, sign) => do
      let op ← comparisonOp tokens sign
      let right ← operand n
      pure (.binary t.line op left right)

def operand : Nat → Indexed Expr
  | 0 => throw .unfinished
  | n + 1 => do
    let x ← term n
    callsOf n x

def callsOf : Nat → Expr → Indexed Expr
  | 0, _ => throw .unfinished
  | n + 1, x => do
    match ← acceptSameLine? tokens Lexeme.openParen? with
    | none => pure x
    | some (t, _) => do
      let args ← arguments n
      callsOf n (.call t.line x args)

/-- The arguments of a call, after its opening parenthesis. -/
def arguments : Nat → Indexed (List Expr)
  | 0 => throw .unfinished
  | n + 1 => do
    match ← accept? tokens Lexeme.closeParen? with
    | some _ => pure []
    | none => do
      let args ← items n
      closeParen tokens
      pure args

def items : Nat → Indexed (List Expr)
  | 0 => throw .unfinished
  | n + 1 => do
    let x ← expr n
    match ← acceptSameLine? tokens Lexeme.comma? with
    | none => pure [x]
    | some _ => do
      let xs ← items n
      pure (x :: xs)

def term : Nat → Indexed Expr
  | 0 => throw .unfinished
  | n + 1 => do
    if ← atEnd tokens then unexpected tokens "expression"
    else do
      let t ← current tokens
      match t.lexeme with
      | .number _ value => do
        let _ ← next tokens
        pure (.number t.line value)
      | .string text => do
        let _ ← next tokens
        pure (.text t.line text)
      | .identifier name => do
        let _ ← next tokens
        pure (.name t.line name)
      | .openParen => do
        let _ ← next tokens
        let x ← expr n
        closeParen tokens
        pure x
      | .operator .minus => do
        let _ ← next tokens
        let x ← operand n
        pure (.binary t.line .sub (.number t.line 0) x)
      | _ => unexpected tokens "expression"

end

def forCommand (n line : Nat) : Indexed Command := do
  openParen tokens
  let var ← identifier tokens
  comma tokens
  let start ← expr tokens n
  comma tokens
  let stop ← expr tokens n
  let step ← match ← accept? tokens Lexeme.comma? with
    | some _ => expr tokens n
    | none => pure (.number line 1)
  closeParen tokens
  pure (.forLoop var start stop step)

def outputCommand (n : Nat) : Indexed Command := do
  openParen tokens
  let row ← expr tokens n
  comma tokens
  let col ← expr tokens n
  comma tokens
  let value ← expr tokens n
  let _ ← acceptSameLine? tokens Lexeme.closeParen?
  pure (.output row col value)

def inputCommand (n line : Nat) : Indexed Command := do
  let first ← expr tokens n
  match ← acceptSameLine? tokens Lexeme.comma? with
  | some _ => do
    let var ← identifier tokens
    pure (.input (some first) var)
  | none => match first with
    | .name _ var => pure (.input none var)
    | _ => throw (.fault (.unexpectedToken line 0 "Identifier" "expression"))

def names : Nat → Indexed (List String)
  | 0 => throw .unfinished
  | n + 1 => do
    let x ← identifier tokens
    match ← acceptSameLine? tokens Lexeme.comma? with
    | none => pure [x]
    | some _ => do
      let xs ← names n
      pure (x :: xs)

def menuOptions : Nat → Indexed (List MenuOption)
  | 0 => throw .unfinished
  | n + 1 => do
    match ← acceptSameLine? tokens Lexeme.comma? with
    | none => pure []
    | some _ => do
      let text ← expr tokens n
      comma tokens
      let target ← label tokens
      let more ← menuOptions n
      pure (⟨text, target⟩ :: more)

def menuCommand (n : Nat) : Indexed Command := do
  openParen tokens
  let title ← expr tokens n
  let options ← menuOptions tokens n
  let _ ← acceptSameLine? tokens Lexeme.closeParen?
  pure (.menu title options)

def dispCommand (n : Nat) : Indexed Command := do
  if ← sameLine tokens then do
    let args ← items tokens n
    pure (.disp args)
  else pure (.disp [])

def pauseCommand (n : Nat) : Indexed Command := do
  if ← sameLine tokens then do
    let value ← expr tokens n
    pure (.pause (some value))
  else pure (.pause none)

/-- What follows a keyword that stands on a line. -/
def keyword? (n line : Nat) (word : String) : Option (Indexed Command) :=
  match word with
  | "if" => some (.ifTest <$> expr tokens n)
  | "then" => some (pure .thenMark)
  | "else" => some (pure .elseMark)
  | "end" => some (pure .endMark)
  | "clrhome" => some (pure .clearHome)
  | "while" => some (.whileLoop <$> expr tokens n)
  | "repeat" => some (.repeatLoop <$> expr tokens n)
  | "for" => some (forCommand tokens n line)
  | "disp" => some (dispCommand tokens n)
  | "output" => some (outputCommand tokens n)
  | "input" => some (inputCommand tokens n line)
  | "prompt" => some (.prompt <$> names tokens n)
  | "pause" => some (pauseCommand tokens n)
  | "menu" => some (menuCommand tokens n)
  | "lbl" => some (.label <$> label tokens)
  | "goto" => some (.goto <$> label tokens)
  | "prgm" => some (.program <$> expect tokens Lexeme.programName? "program name")
  | _ => none

def computeCommand (n : Nat) : Indexed Command := do
  let _ ← current tokens
  .compute <$> expr tokens n

/-- A statement. Whether a token is left is not looked at before the first one is read. -/
def statement (n : Nat) : Indexed Statement := do
  let t ← current tokens
  match t.lexeme with
  | .identifier name => match keyword? tokens n t.line name.toLower with
    | some command => do
      let _ ← next tokens
      Statement.mk t.line <$> command
    | none => Statement.mk t.line <$> computeCommand tokens n
  | _ => Statement.mk t.line <$> computeCommand tokens n

def statements : Nat → Indexed (List Statement)
  | 0 => throw .unfinished
  | n + 1 => do
    if ← atEnd tokens then pure []
    else do
      let s ← statement tokens n
      let more ← statements n
      pure (s :: more)

/-- The program that the tokens spell, read by position. -/
def program (n : Nat) : Indexed Program := do
  let sts ← statements tokens n
  match Program.ofStatements sts with
  | .ok p => pure p
  | .error e => throw (.fault e)

end Indexed

end PocketBasic
