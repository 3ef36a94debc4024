import PocketBasic.Text.Blank
import PocketBasic.Text.Case
import PocketBasic.Text.Quoted

/-!
# Program names

A program name is a letter and up to seven letters and digits, in upper case. Typed names are
brought to that form.
-/

namespace PocketBasic.Library

def isNameLetter (c : Char) : Bool := 'A' ≤ c && c ≤ 'Z'

def isNameChar (c : Char) : Bool := isNameLetter c || ('0' ≤ c && c ≤ '9')

def maxNameChars : Nat := 8

def isName (s : String) : Bool :=
  match s.toList with
  | [] => false
  | c :: cs => isNameLetter c && cs.all isNameChar && cs.length < maxNameChars

def normalize? (s : String) : Option String :=
  let name := Text.upper (Text.trim s)
  if isName name then some name else none

def invalidNameMessage (s : String) : String := "invalid program name: " ++ Text.quote s

end PocketBasic.Library
