import PocketBasic.Document.Yaml.Cursor
import PocketBasic.Number.Literal

/-!
# YAML scalars

A scalar may run over several lines: one line break between two lines of it becomes a space, and of
more than one the first is dropped. A line break that is no line feed stays as it is.
-/

namespace PocketBasic.Yaml

/-! ### Gaps -/

/-- Blanks and line breaks inside a scalar. -/
structure Gap where
  /-- The blanks, if they all stand on one line. -/
  blanks : List Char := []
  /-- The first line break. It is empty if a backslash hides it. -/
  first : List Char := []
  /-- The line breaks after the first. -/
  more : List Char := []
  /-- There is a line break. -/
  broken : Bool := false

namespace Gap

def isEmpty (g : Gap) : Bool := g.blanks.isEmpty && !g.broken

def text (g : Gap) : List Char :=
  if !g.broken then g.blanks
  else if g.first = ['\n'] then (if g.more.isEmpty then [' '] else g.more)
  else g.first ++ g.more

end Gap

/-- The blanks and line breaks after the first line break of a gap. No tab may stand before the
column `indent`. -/
def moreBreaks (indent : Int) : Nat → Reader (List Char)
  | 0 => pure []
  | n + 1 => do
    let column : Int := (← get).column
    let blanks ← run isBlank
    if (blanks.take (indent - column).toNat).contains '\t' then fail
    else do
      let b ← lineBreak
      if b.isEmpty then pure []
      else do
        let bs ← moreBreaks indent n
        pure (b ++ bs)

def gap (indent : Int) (fuel : Nat) : Reader Gap := do
  let blanks ← run isBlank
  let first ← lineBreak
  if first.isEmpty then pure { blanks }
  else do
    let more ← moreBreaks indent fuel
    pure { first, more, broken := true }

/-! ### Plain scalars -/

def flowIndicators : List Char := [',', '[', ']', '\x7b', '\x7d']

def indicators : List Char :=
  ['-', '?', ':', '#', '&', '*', '!', '|', '>', '\'', '"', '%', '@', Char.ofNat 96] ++
    flowIndicators

def startsPlain (flow : Bool) : List Char → Bool
  | [] => false
  | c :: cs =>
    !atGap (c :: cs) && (!indicators.contains c || (c = '-' && !atGap cs) ||
      (!flow && (c = '?' || c = ':') && !atGap cs))

/-- A word of a plain scalar ends before `c`, which stands before `cs`. -/
def endsWord (flow : Bool) (c : Char) (cs : List Char) : Bool :=
  isBlank c || isBreak c || (c = ':' && atGap cs) ||
    (flow && (c = '?' || flowIndicators.contains c))

def wordOf (flow : Bool) : List Char → List Char
  | [] => []
  | c :: cs => if endsWord flow c cs then [] else c :: wordOf flow cs

def word (flow : Bool) : Reader (List Char) := fun k =>
  let cs := wordOf flow k.rest
  if cs.contains unreadable then none else some (cs, k.afterAll cs)

/-- Reads on in a plain scalar after the gap `before`. The gap behind the scalar is passed too; the
flag tells whether it holds a line break. -/
def plainRest (flow : Bool) (indent : Int) : Nat → Gap → Reader (List Char × Bool)
  | 0, _ => fail
  | n + 1, before => do
    let k ← get
    let cs ← if k.atMarker || k.rest.head? = some '#' then pure [] else word flow
    if cs.isEmpty then pure ([], before.broken)
    else do
      let g ← gap indent n
      let k ← get
      let text := before.text ++ cs
      if g.isEmpty then pure (text, false)
      else if !flow && (k.column : Int) < indent then pure (text, g.broken)
      else do
        let (more, broken) ← plainRest flow indent n g
        pure (text ++ more, broken)

/-- A plain scalar whose lines are indented at least so far. -/
def plain (flow : Bool) (indent : Int) (fuel : Nat) : Reader (String × Bool) := do
  let (cs, broken) ← plainRest flow indent fuel {}
  pure (String.ofList cs, broken)

/-! ### Quoted scalars -/

/-- A character whose number is written with so many hexadecimal digits. -/
def hexEscape (digits : Nat) : Reader Char := fun k =>
  let ds := k.rest.take digits
  let n := Number.natOfDigits 16 ds
  if ds.length = digits && ds.all Number.isHexDigit && n.isValidChar then
    some (Char.ofNat n, k.afterAll ds)
  else none

/-- The rest of an escape after its backslash. -/
def escape : Reader Char := do
  match ← next with
  | '0' => pure '\x00'
  | 'a' => pure '\x07'
  | 'b' => pure '\x08'
  | 't' => pure '\t'
  | '\t' => pure '\t'
  | 'n' => pure '\n'
  | 'v' => pure '\x0b'
  | 'f' => pure '\x0c'
  | 'r' => pure '\r'
  | 'e' => pure '\x1b'
  | ' ' => pure ' '
  | '"' => pure '"'
  | '\'' => pure '\''
  | '\\' => pure '\\'
  | 'N' => pure (Char.ofNat 0x85)
  | '_' => pure (Char.ofNat 0xA0)
  | 'L' => pure lineSeparator
  | 'P' => pure paragraphSeparator
  | 'x' => hexEscape 2
  | 'u' => hexEscape 4
  | 'U' => hexEscape 8
  | _ => fail

/-- Reads up to a gap or the closing quote. The flag tells whether the word ends in a line break
that a backslash hides. -/
def quotedWord (quote : Char) : Nat → Reader (List Char × Bool)
  | 0 => fail
  | n + 1 => do
    let k ← get
    if atGap k.rest then pure ([], false)
    else if quote = '\'' && "''".toList.isPrefixOf k.rest then do
      skip
      skip
      let (cs, hidden) ← quotedWord quote n
      pure ('\'' :: cs, hidden)
    else if k.rest.head? = some quote then pure ([], false)
    else if quote = '"' && k.rest.head? = some '\\' then do
      skip
      if atBreak k.rest.tail then do
        let _ ← lineBreak
        pure ([], true)
      else do
        let c ← escape
        let (cs, hidden) ← quotedWord quote n
        pure (c :: cs, hidden)
    else do
      let c ← next
      let (cs, hidden) ← quotedWord quote n
      pure (c :: cs, hidden)

def quotedRest (quote : Char) : Nat → Reader (List Char)
  | 0 => fail
  | n + 1 => do
    let k ← get
    if k.atMarker || k.rest.isEmpty then fail
    else do
      let (cs, hidden) ← quotedWord quote (n + 1)
      if (← peek) = some quote then do
        skip
        pure cs
      else do
        let g ← if hidden then do
            let more ← moreBreaks 0 n
            pure { more, broken := true }
          else gap 0 n
        let more ← quotedRest quote n
        pure (cs ++ g.text ++ more)

def quoted (fuel : Nat) : Reader String := do
  let quote ← next
  let cs ← quotedRest quote fuel
  pure (String.ofList cs)

/-! ### Block scalars -/

/-- What becomes of the line breaks at the end of a block scalar. -/
inductive Chomp where
  | strip
  | clip
  | keep
deriving DecidableEq

/-- The end of a block scalar whose last line ends in `first`, with the breaks `more` after it. -/
def Chomp.apply (chomp : Chomp) (first more : List Char) : List Char :=
  match chomp with
  | .strip => []
  | .clip => first
  | .keep => first ++ more

structure BlockHeader where
  chomp : Chomp := .clip
  /-- How much deeper than its parent the text is indented, where that is said. -/
  depth : Option Nat := none

def chompMark : Reader (Option Chomp) := do
  match ← peek with
  | some '-' => do
    skip
    pure (some .strip)
  | some '+' => do
    skip
    pure (some .keep)
  | _ => pure none

def depthMark : Reader (Option Nat) := do
  match ← peek with
  | some c =>
    if c = '0' then fail
    else if Number.isDecimalDigit c then do
      skip
      pure (some (Number.digitValue c))
    else pure none
  | none => pure none

/-- The marks after the sign of a block scalar: at most one of each kind, in any order. -/
def blockHeader : Reader BlockHeader := do
  match ← chompMark with
  | some chomp => do
    let depth ← depthMark
    pure { chomp, depth }
  | none => match ← depthMark with
    | none => pure {}
    | some depth => do
      let chomp ← chompMark
      pure { chomp := chomp.getD .clip, depth := some depth }

/-- Passes empty lines and the indentation of the next line. Without an `indent`, all spaces count
as indentation. Gives the line breaks and the greatest column that was reached. -/
def emptyLines (indent : Option Nat) : Nat → Reader (List Char × Nat)
  | 0 => fail
  | n + 1 => do
    let start ← get
    let spaces := start.rest.takeWhile (· = ' ')
    let k := start.afterAll (match indent with
      | none => spaces
      | some i => spaces.take (i - start.column))
    set k
    if k.rest.head? = some '\t' && indent.all (k.column < ·) then fail
    else if atBreak k.rest then do
      let b ← lineBreak
      let (bs, widest) ← emptyLines indent n
      pure (b ++ bs, max k.column widest)
    else pure ([], k.column)

/-- Reads on in a block scalar. The line before ends in `first`, with the breaks `more` after it,
and `blank` tells whether it starts with a blank. Only lines that start with text are folded. -/
def blockRest (folded : Bool) (chomp : Chomp) (indent : Nat) :
    Nat → Bool → List Char → List Char → Reader (List Char)
  | 0, _, _, _ => fail
  | n + 1, blank, first, more => do
    let k ← get
    if k.column ≠ indent || k.rest.isEmpty then pure (chomp.apply first more)
    else do
      let startsBlank := k.rest.head?.any isBlank
      let joint :=
        if folded && !blank && !startsBlank && first = ['\n'] then
          if more.isEmpty then [' '] else []
        else first
      let line ← run fun _ => true
      let b ← lineBreak
      let (bs, _) ← emptyLines (some indent) (n + 1)
      let rest ← blockRest folded chomp indent n startsBlank b bs
      pure (joint ++ more ++ line ++ rest)

/-- A block scalar inside a block that is indented by `parent`. -/
def blockScalar (parent : Int) (fuel : Nat) : Reader String := do
  let sign ← next
  let header ← blockHeader
  endOfLine
  let given := header.depth.map fun d => parent.toNat + d
  let (breaks, widest) ← emptyLines given fuel
  let indent := given.getD (max widest (max (parent + 1).toNat 1))
  let cs ← blockRest (sign = '>') header.chomp indent fuel false [] breaks
  pure (String.ofList cs)

end PocketBasic.Yaml
