/-!
# What can be wrong with a program

The causes for which a program is refused or stopped, the parts of a report about one, and its
wording.
-/

namespace PocketBasic

inductive Fault where
  /-- No token starts with this text, or it is a number out of range. The text is quoted. -/
  | unexpectedCharacter (line col : Nat) (quoted : String)
  | unexpectedToken (line col : Nat) (expected found : String)
  | unexpectedEnd (line : Nat) (expected : String)
  | duplicateLabel (line : Nat) (label : String)
  | undefinedLabel (line : Nat) (label : String)
  | unbalancedEnd (line : Nat)
  | menuSelection (line : Nat)
  /-- One program cannot start another. -/
  | unsupported (line : Nat) (program : String)
deriving DecidableEq, Repr

namespace Fault

def category : Fault → String
  | .unexpectedCharacter .. => "LEXICAL ERROR"
  | .unexpectedToken .. | .unexpectedEnd .. => "SYNTAX ERROR"
  | .duplicateLabel .. => "LOAD ERROR"
  | .undefinedLabel .. | .unbalancedEnd _ | .menuSelection _ | .unsupported .. => "RUNTIME ERROR"

def reason : Fault → String
  | .unexpectedCharacter .. => "unexpected character"
  | .unexpectedToken .. => "unexpected token"
  | .unexpectedEnd .. => "unexpected end of program"
  | .duplicateLabel .. => "duplicate label"
  | .undefinedLabel .. => "undefined label"
  | .unbalancedEnd _ => "End without open block"
  | .menuSelection _ => "menu selection out of range"
  | .unsupported .. => "unsupported statement"

def line : Fault → Nat
  | .unexpectedCharacter line .. => line
  | .unexpectedToken line .. => line
  | .unexpectedEnd line _ => line
  | .duplicateLabel line _ => line
  | .undefinedLabel line _ => line
  | .unbalancedEnd line => line
  | .menuSelection line => line
  | .unsupported line _ => line

/-- The column, where one is reported, else zero. -/
def col : Fault → Nat
  | .unexpectedCharacter _ col _ => col
  | .unexpectedToken _ col .. => col
  | _ => 0

def detail : Fault → String
  | .unexpectedCharacter _ _ quoted => quoted
  | .duplicateLabel _ label => label
  | .undefinedLabel _ label => label
  | .unsupported _ program => "Prgm " ++ program
  | _ => ""

def expected : Fault → String
  | .unexpectedToken _ _ expected _ => expected
  | .unexpectedEnd _ expected => expected
  | _ => ""

def found : Fault → String
  | .unexpectedToken _ _ _ found => found
  | .unexpectedEnd .. => "end of program"
  | _ => ""

def message (f : Fault) : String :=
  let place := if f.line = 0 then "" else " IN LINE " ++ toString f.line
  let rest :=
    if f.expected ≠ "" then ": expected " ++ f.expected ++ ", found " ++ f.found
    else if f.detail ≠ "" then ": " ++ f.detail
    else ""
  f.category ++ place ++ ": " ++ f.reason ++ rest

end Fault

end PocketBasic
