import PocketBasic.Text.Utf8

/-!
# Places in a YAML text

A cursor stands before the rest of a text and knows its line and column. A line may end in several
ways, and most of them count as a line feed.
-/

namespace PocketBasic.Yaml

def isBlank (c : Char) : Bool := c = ' ' || c = '\t'

def lineSeparator : Char := Char.ofNat 0x2028

def paragraphSeparator : Char := Char.ofNat 0x2029

def isFeed (c : Char) : Bool := c = '\n' || c = '\r'

def isBreak (c : Char) : Bool :=
  isFeed c || c = Char.ofNat 0x85 || c = lineSeparator || c = paragraphSeparator

def isNameChar (c : Char) : Bool := c.isAlphanum || c = '-' || c = '_'

def atBreak (cs : List Char) : Bool := cs.head?.any isBreak

/-- The text ends here, or goes on with a blank or a line break. -/
def atGap : List Char → Bool
  | [] => true
  | c :: _ => isBlank c || isBreak c

structure Cursor where
  rest : List Char
  /-- How many characters have been passed. -/
  index : Nat := 0
  line : Nat := 0
  column : Nat := 0
  /-- How many line breaks have been passed since the last character that is not a blank. -/
  breaks : Nat := 0

/-- Stands for a part of the text that cannot be read. -/
def unreadable : Char := '\x00'

abbrev Reader := StateT Cursor Option

def fail {α : Type} : Reader α := fun _ => none

namespace Cursor

/-- A line that starts or ends a document. -/
def atMarker (k : Cursor) : Bool :=
  k.column = 0 && (("---".toList.isPrefixOf k.rest) || ("...".toList.isPrefixOf k.rest)) &&
    atGap (k.rest.drop 3)

/-- The place after the character `c`, which stands before `rest` and ends no line. -/
def after (k : Cursor) (c : Char) (rest : List Char) : Cursor :=
  { rest, index := k.index + 1, line := k.line, column := k.column + 1,
    breaks := if isBlank c then k.breaks else 0 }

/-- The place on the next line, after a break of `n` characters that stands before `rest`. -/
def afterBreak (k : Cursor) (n : Nat) (rest : List Char) : Cursor :=
  { rest, index := k.index + n, line := k.line + 1, column := 0, breaks := k.breaks + 1 }

/-- The place after the characters `cs`, which end no line. -/
def afterAll (k : Cursor) : List Char → Cursor
  | [] => k
  | c :: cs => afterAll (k.after c (k.rest.drop 1)) cs

end Cursor

def peek : Reader (Option Char) := fun k => some (k.rest.head?, k)

def next : Reader Char := fun k => match k.rest with
  | [] => none
  | c :: cs => if c = unreadable then none else some (c, k.after c cs)

def skip : Reader Unit := do
  let _ ← next

/-- Takes a line break, if one comes next, and gives the text that it stands for. -/
def lineBreak : Reader (List Char) := fun k => match k.rest with
  | '\r' :: '\n' :: cs => some (['\n'], k.afterBreak 2 cs)
  | c :: cs =>
    if !isBreak c then some ([], k)
    else
      let text := if c = lineSeparator || c = paragraphSeparator then c else '\n'
      some ([text], k.afterBreak 1 cs)
  | [] => some ([], k)

/-- The longest run of characters of one line that satisfy `p`. -/
def run (p : Char → Bool) : Reader (List Char) := fun k =>
  let cs := k.rest.takeWhile fun c => !isBreak c && p c
  if cs.contains unreadable then none else some (cs, k.afterAll cs)

def restOfLine : Reader Unit := do
  let _ ← run fun _ => true

/-! ### Comments -/

/-- How far ahead a comment is looked for. -/
def commentReach : Nat := 512

/-- A comment on the line of the token before it. It needs no blank in front of it. -/
def lineComment : Reader Unit := do
  let k ← get
  let blanks := k.rest.takeWhile isBlank
  if k.breaks = 0 && blanks.length < commentReach && k.rest[blanks.length]? = some '#' then
    restOfLine

/-- Moves over `n` characters, blanks and line breaks only. -/
def passGap : Nat → Reader Unit
  | 0 => pure ()
  | n + 1 => do
    let k ← get
    if atBreak k.rest then do
      let start := k.index
      let _ ← lineBreak
      passGap (n - ((← get).index - start - 1))
    else do
      skip
      passGap n

/-- A comment and the comments that follow it with nothing but blanks and line breaks between. -/
def comments : Nat → Reader Unit
  | 0 => pure ()
  | n + 1 => do
    restOfLine
    let k ← get
    let ahead := (k.rest.drop 1).take (commentReach - 1)
    let gap := ahead.takeWhile fun c => isBlank c || isFeed c
    if k.rest.head?.any isFeed && ahead[gap.length]? = some '#' then do
      passGap (gap.length + 1)
      comments n

/-- Blanks and a comment up to the end of the line, which has to come. -/
def endOfLine : Reader Unit := do
  let _ ← run isBlank
  if (← peek) = some '#' then restOfLine
  let k ← get
  if k.rest.isEmpty || atBreak k.rest then do
    let _ ← lineBreak
  else fail

/-! ### What may stand in a text -/

def isAllowed (c : Char) : Bool :=
  let n := c.toNat
  n = 9 || n = 10 || n = 13 || (0x20 ≤ n && n ≤ 0x7E) || n = 0x85 || (0xA0 ≤ n && n ≤ 0xFFFD) ||
    0x10000 ≤ n

def blockBytes : Nat := 512

/-- Splits off the characters that lie wholly within `room` bytes. -/
def splitBlock (room : Nat) : List Char → List Char × List Char
  | [] => ([], [])
  | c :: cs =>
    if c.utf8Size ≤ room then
      let (block, after) := splitBlock (room - c.utf8Size) cs
      (c :: block, after)
    else ([], c :: cs)

/-- The text with the first block that holds a forbidden character, and all after it, replaced. -/
def readable : Nat → List Char → List Char
  | 0, _ => []
  | _, [] => []
  | n + 1, cs =>
    let (block, after) := splitBlock blockBytes cs
    if block.all isAllowed then block ++ readable n after else [unreadable]

def byteOrderMark : Char := Char.ofNat 0xFEFF

/-- The start of a text. A byte order mark in front of it is dropped. -/
def Cursor.ofText (text : String) : Cursor :=
  let cs := text.toList
  let cs := if cs.all isAllowed then cs else readable cs.length cs
  { rest := if cs.head? = some byteOrderMark then cs.tail else cs }

end PocketBasic.Yaml
