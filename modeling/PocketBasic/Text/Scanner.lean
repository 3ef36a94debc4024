/-!
# Reading a text from the front

A scanner takes a value off the front of a character list, or fails. Repetition is bounded by the
length of the text, which every successful repetition shortens.
-/

namespace PocketBasic.Text

abbrev Scanner := StateT (List Char) Option

namespace Scanner

def fail {α : Type} : Scanner α := fun _ => none

def rest : Scanner (List Char) := fun cs => some (cs, cs)

def peek : Scanner (Option Char) := fun cs => some (cs.head?, cs)

def next : Scanner Char
  | [] => none
  | c :: cs => some (c, cs)

def one (p : Char → Bool) : Scanner Char
  | [] => none
  | c :: cs => if p c then some (c, cs) else none

def char (c : Char) : Scanner Unit := do
  let _ ← one (· = c)

def run (p : Char → Bool) : Scanner (List Char) :=
  fun cs => some (cs.takeWhile p, cs.dropWhile p)

def word (w : String) : Scanner Unit :=
  fun cs => if w.toList.isPrefixOf cs then some ((), cs.drop w.length) else none

def startsWith (w : String) : Scanner Bool :=
  fun cs => some (w.toList.isPrefixOf cs, cs)

def skip (n : Nat) : Scanner Unit := fun cs => some ((), cs.drop n)

def atEnd : Scanner Bool := fun cs => some (cs.isEmpty, cs)

def parse? {α : Type} (s : Scanner α) (text : List Char) : Option α :=
  match s text with
  | some (a, []) => some a
  | _ => none

end Scanner

end PocketBasic.Text
