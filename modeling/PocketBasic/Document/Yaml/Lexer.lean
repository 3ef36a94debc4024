import PocketBasic.Document.Yaml.Token

/-!
# Splitting a YAML text into tokens

A key is known as such only when its colon comes, so tokens wait in a queue, where a token can still
be put in front of others. The colon has to come on the line of the key and within reach of it.
-/

namespace PocketBasic.Yaml

/-- A place where a key may start. There is one for each open bracket, and one outside of all. -/
structure KeyPlace where
  /-- A colon may still come. -/
  possible : Bool := false
  /-- A colon has to come. -/
  required : Bool := false
  /-- The token at this place is held back in the queue. -/
  held : Bool := false
  /-- The number of the token at this place. -/
  number : Nat := 0
  index : Nat := 0
  line : Nat := 0
  column : Nat := 0

/-- How far the colon may stand from the start of its key. -/
def maxKeyLength : Nat := 1024

def maxDepth : Nat := 10000

/-- A colon at `k` makes a key of what stands at this place. Nothing if the colon had to come
before. -/
def KeyPlace.reaches? (p : KeyPlace) (k : Cursor) : Option Bool :=
  if !p.possible then some false
  else if k.line ≤ p.line && k.index ≤ p.index + maxKeyLength then some true
  else if p.required then none
  else some false

structure Lexer where
  cursor : Cursor
  /-- A bound for the number of steps that the rest of the text takes. -/
  fuel : Nat
  /-- The tokens that have been read and not been taken. -/
  queue : List Token := []
  /-- How many tokens have been taken. -/
  taken : Nat := 0
  /-- The column of the innermost block collection. -/
  indent : Int := -1
  /-- The columns of the block collections around it. -/
  outer : List Int := []
  /-- A key may start here. -/
  keyAllowed : Bool := true
  /-- The place of a key within the innermost brackets. -/
  place : KeyPlace := {}
  /-- The places of keys outside of them. -/
  places : List KeyPlace := []

namespace Lexer

def inFlow (l : Lexer) : Bool := !l.places.isEmpty

def nextNumber (l : Lexer) : Nat := l.taken + l.queue.length

def append (l : Lexer) (t : Token) : Lexer := { l with queue := l.queue ++ [t] }

/-- Puts a token in front of the one with this number, or last if that one has been taken. -/
def insert (l : Lexer) (number : Nat) (t : Token) : Lexer :=
  if number < l.taken then l.append t
  else { l with queue := l.queue.insertIdx (number - l.taken) t }

/-- Closes the block collections that stand to the right of `column`; gives the columns that stay
and the number of those closed. -/
def dedent (column indent : Int) : List Int → Int × List Int × Nat
  | [] => (indent, [], 0)
  | i :: is =>
    if column < indent then
      let (indent, is, n) := dedent column i is
      (indent, is, n + 1)
    else (indent, i :: is, 0)

def closeBlocks (l : Lexer) (column : Int) : Lexer :=
  if l.inFlow then l
  else
    let (indent, outer, n) := dedent column l.indent l.outer
    { l with indent, outer, queue := l.queue ++ List.replicate n .blockEnd }

end Lexer

abbrev Lexing := StateT Lexer Option

def refuse {α : Type} : Lexing α := fun _ => none

def read {α : Type} (r : Reader α) : Lexing α := fun l =>
  (r l.cursor).map fun (a, k) => (a, { l with cursor := k })

def append (t : Token) : Lexing Unit := modify (·.append t)

def allowKey (allowed : Bool) : Lexing Unit := modify fun l => { l with keyAllowed := allowed }

/-! ### Places of keys -/

def dropKey : Lexing Unit := do
  let l ← get
  if l.place.possible && l.place.required then refuse
  else set { l with place := { l.place with possible := false, held := false } }

/-- A key may start here. It has to, at the column of a block collection. -/
def markKey : Lexing Unit := do
  if (← get).keyAllowed then do
    dropKey
    modify fun l =>
      let k := l.cursor
      { l with place :=
          { possible := true, required := !l.inFlow && l.indent = k.column, held := true,
            number := l.nextNumber, index := k.index, line := k.line, column := k.column } }

def openFlow : Lexing Unit := do
  let l ← get
  let place : KeyPlace := { number := l.nextNumber }
  if l.places.length < maxDepth then set { l with place, places := l.place :: l.places }
  else refuse

def closeFlow : Lexing Unit := modify fun l => match l.places with
  | [] => l
  | p :: ps =>
    { l with place := { p with held := p.held && p.number ≠ l.place.number }, places := ps }

def openBlock (column : Int) (number : Option Nat) (t : Token) : Lexing Unit := do
  let l ← get
  if !l.inFlow && l.indent < column then
    if l.outer.length < maxDepth then
      let l := { l with indent := column, outer := l.indent :: l.outer }
      set (match number with
        | some n => l.insert n t
        | none => l.append t)
    else refuse

/-! ### One token -/

/-- Moves over blanks, comments and line breaks. In a block, a tab may not stand where a key may
start. -/
def passFiller : Nat → Lexing Unit
  | 0 => refuse
  | n + 1 => do
    let l ← get
    if l.cursor.index = 0 && l.cursor.rest.head? = some byteOrderMark then read skip
    let _ ← read (run fun c => c = ' ' || ((l.inFlow || !l.keyAllowed) && c = '\t'))
    if (← get).cursor.rest.head? = some '#' then read (comments l.fuel)
    if atBreak (← get).cursor.rest then do
      let _ ← read lineBreak
      if !l.inFlow then allowKey true
      passFiller n

def streamEnd : Lexing Unit := do
  modify fun l =>
    let k := l.cursor
    { l with cursor := if k.column = 0 then k else { k with column := 0, line := k.line + 1 } }
  modify (·.closeBlocks (-1))
  dropKey
  allowKey false
  append .streamEnd

/-- A token that ends all blocks. -/
def topLevel (r : Reader Token) : Lexing Unit := do
  modify (·.closeBlocks (-1))
  dropKey
  allowKey false
  let t ← read r
  append t

def marker : Reader Token := do
  let c ← next
  skip
  skip
  pure (if c = '-' then .documentStart else .documentEnd)

def flowStart (t : Token) : Lexing Unit := do
  markKey
  openFlow
  allowKey true
  read skip
  append t

def flowEnd (t : Token) : Lexing Unit := do
  dropKey
  closeFlow
  allowKey false
  read skip
  append t

def comma : Lexing Unit := do
  dropKey
  allowKey true
  read skip
  append .comma

/-- In a block, an indicator that starts a collection of its own if there is none in its column. -/
def openByIndicator (t : Token) : Lexing Unit := do
  let l ← get
  if l.inFlow then pure ()
  else if l.keyAllowed then openBlock l.cursor.column none t
  else refuse

def dash : Lexing Unit := do
  openByIndicator .blockSequence
  dropKey
  allowKey true
  read skip
  append .dash

def explicitKey : Lexing Unit := do
  openByIndicator .blockMapping
  dropKey
  allowKey (!(← get).inFlow)
  read skip
  append .key

/-- A colon. If a key may have started, it has. -/
def value : Lexing Unit := do
  let l ← get
  match l.place.reaches? l.cursor with
  | none => refuse
  | some true => do
    let p := l.place
    set ({ l with place := { p with possible := false, held := false } }.insert p.number .key)
    openBlock p.column (some p.number) .blockMapping
    allowKey false
  | some false => do
    openByIndicator .blockMapping
    allowKey (!l.inFlow)
  read skip
  append .value

/-- A token at which a key may start. -/
def keyStart (r : Reader Token) : Lexing Unit := do
  markKey
  allowKey false
  let t ← read r
  append t

def blockText : Lexing Unit := do
  dropKey
  allowKey true
  let l ← get
  let s ← read (blockScalar l.indent l.fuel)
  append (.scalar false s)

def plainText : Lexing Unit := do
  markKey
  allowKey false
  let l ← get
  let (s, broken) ← read (plain l.inFlow (l.indent + 1) l.fuel)
  append (.scalar true s)
  if broken then allowKey true

def content (c : Char) (cs : List Char) : Lexing Unit := do
  let l ← get
  let setOff := atGap cs
  if c = '[' then flowStart .sequenceStart
  else if c = '\x7b' then flowStart .mappingStart
  else if c = ']' then flowEnd .sequenceEnd
  else if c = '\x7d' then flowEnd .mappingEnd
  else if c = ',' then comma
  else if c = '-' && setOff then dash
  else if c = '?' && (l.inFlow || setOff) then explicitKey
  else if c = ':' && (l.inFlow || setOff) then value
  else if c = '*' then keyStart (Token.reference <$> anchorName)
  else if c = '&' then keyStart (Token.anchor <$> anchorName)
  else if c = '!' then keyStart (tag l.fuel)
  else if (c = '|' || c = '>') && !l.inFlow then blockText
  else if c = '\'' || c = '"' then keyStart (Token.scalar false <$> quoted l.fuel)
  else if startsPlain l.inFlow (c :: cs) then plainText
  else refuse

/-- Reads one token, and with it the ends of the blocks that it stands outside of. -/
def fetch : Lexing Unit := do
  passFiller (← get).fuel
  modify fun l => l.closeBlocks l.cursor.column
  let l ← get
  match l.cursor.rest with
  | [] => streamEnd
  | c :: cs =>
    if l.cursor.column = 0 && c = '%' then topLevel (directive l.fuel)
    else if l.cursor.atMarker then topLevel marker
    else do
      content c cs
      if !(c = '-' && atGap cs) then read lineComment

/-! ### Taking tokens -/

/-- How many tokens are read before the first of them is taken, at least. -/
def lookahead : Nat := 3

/-- More tokens have to be read: there are too few, or the first may still turn out to start a
key. -/
def needsMore : Lexing Bool := do
  let l ← get
  if l.queue.length < lookahead then pure true
  else match (l.place :: l.places).find? fun p => p.held && p.number = l.taken with
  | none => pure false
  | some p => match p.reaches? l.cursor with
    | none => refuse
    | some b => pure b

def fill : Nat → Lexing Unit
  | 0 => refuse
  | n + 1 => do
    if ← needsMore then do
      fetch
      fill n

def peekToken : Lexing Token := do
  fill (← get).fuel
  match (← get).queue with
  | t :: _ => pure t
  | [] => refuse

def takeToken : Lexing Token := do
  let t ← peekToken
  modify fun l => { l with queue := l.queue.tail, taken := l.taken + 1 }
  pure t

def Lexer.ofText (text : String) : Lexer :=
  { cursor := Cursor.ofText text, fuel := text.length + 8 }

end PocketBasic.Yaml
