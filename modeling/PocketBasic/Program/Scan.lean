import PocketBasic.Number.Literal
import PocketBasic.Program.Fault
import PocketBasic.Program.Token
import PocketBasic.Text.Blank

/-!
# From text to tokens

The text is read once from left to right. Blanks separate tokens and are dropped. A string runs to
the next quote or to the end of the text.
-/

namespace PocketBasic

structure Position where
  line : Nat
  col : Nat
deriving DecidableEq, Repr

namespace Position

def start : Position := ⟨1, 1⟩

def next (p : Position) (c : Char) : Position :=
  if c = '\n' then ⟨p.line + 1, 1⟩ else ⟨p.line, p.col + 1⟩

def after (p : Position) (cs : List Char) : Position := cs.foldl next p

end Position

def isWordChar (c : Char) : Bool :=
  ('a' ≤ c && c ≤ 'z') || ('A' ≤ c && c ≤ 'Z') || ('0' ≤ c && c ≤ '9') || c = '.'

/-- Digits, or digits on both sides of a single point. -/
def isNumberWord (cs : List Char) : Bool :=
  match cs.dropWhile Number.isDecimalDigit with
  | [] => !cs.isEmpty
  | '.' :: fraction =>
    cs.head? != some '.' && !fraction.isEmpty && fraction.all Number.isDecimalDigit
  | _ => false

namespace Lexeme

/-- The lexeme of a word, or the word itself if it is a number out of range. -/
def ofWord (cs : List Char) : Except String Lexeme :=
  let word := String.ofList cs
  if isNumberWord cs then
    match Number.read? word with
    | some x => .ok (.number word x)
    | none => .error word
  else .ok (.identifier word)

/-- The lexeme at the start of `c :: cs` and how many characters after `c` belong to it. -/
def read (c : Char) (cs : List Char) : Except String (Lexeme × Nat) :=
  if isWordChar c then
    let more := cs.takeWhile isWordChar
    (ofWord (c :: more)).map (·, more.length)
  else match c with
    | '"' =>
      let body := cs.takeWhile (· ≠ '"')
      let closing := if body.length < cs.length then 1 else 0
      .ok (.string (String.ofList body), body.length + closing)
    | '+' => .ok (.operator .plus, 0)
    | '*' => .ok (.operator .times, 0)
    | '/' => .ok (.operator .slash, 0)
    | '%' => .ok (.operator .percent, 0)
    | '-' => .ok (if cs.head? = some '>' then (.assignment, 1) else (.operator .minus, 0))
    | '>' => .ok (if cs.head? = some '=' then (.comparison .greaterEquals, 1)
        else (.comparison .greater, 0))
    | '<' => .ok (if cs.head? = some '=' then (.comparison .lessEquals, 1)
        else (.comparison .less, 0))
    | '=' => .ok (.comparison .equals, 0)
    | '!' => .ok (.comparison .bang, 0)
    | '(' => .ok (.openParen, 0)
    | ')' => .ok (.closeParen, 0)
    | ',' => .ok (.comma, 0)
    | _ => .error (String.singleton c)

end Lexeme

def scanFrom (p : Position) : List Char → Except Fault (List Token)
  | [] => .ok []
  | c :: cs =>
    if Text.isBlank c then scanFrom (p.next c) cs
    else match Lexeme.read c cs with
      | .error text => .error (.unexpectedCharacter p.line p.col (Text.quote text))
      | .ok (x, k) =>
        (scanFrom (p.after (c :: cs.take k)) (cs.drop k)).map (⟨x, p.line, p.col⟩ :: ·)
termination_by cs => cs.length
decreasing_by
  · simp
  · simp only [List.length_drop, List.length_cons]; omega

def scan (source : String) : Except Fault (List Token) :=
  scanFrom .start source.toList

end PocketBasic
