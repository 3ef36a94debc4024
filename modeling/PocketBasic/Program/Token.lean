import PocketBasic.Text.Quoted

/-!
# Tokens of the program text
-/

namespace PocketBasic

inductive ArithmeticSign where
  | plus
  | minus
  | times
  | slash
  | percent
deriving DecidableEq, Repr

/-- The comparison signs. "Not equal" is written with two of them, a bang and an equals sign. -/
inductive ComparisonSign where
  | equals
  | bang
  | less
  | greater
  | lessEquals
  | greaterEquals
deriving DecidableEq, Repr

/-- The smallest units of a program text. A number keeps its spelling beside its value. -/
inductive Lexeme where
  | number (spelling : String) (value : Float)
  | string (text : String)
  | identifier (name : String)
  | operator (sign : ArithmeticSign)
  | comparison (sign : ComparisonSign)
  | assignment
  | openParen
  | closeParen
  | comma

structure Token where
  lexeme : Lexeme
  line : Nat
  col : Nat

def ArithmeticSign.text : ArithmeticSign → String
  | .plus => "+"
  | .minus => "-"
  | .times => "*"
  | .slash => "/"
  | .percent => "%"

def ComparisonSign.text : ComparisonSign → String
  | .equals => "="
  | .bang => "!"
  | .less => "<"
  | .greater => ">"
  | .lessEquals => "<="
  | .greaterEquals => ">="

namespace Lexeme

def kind : Lexeme → String
  | .number .. => "Number"
  | .string _ => "String"
  | .identifier _ => "Identifier"
  | .operator _ => "Operator"
  | .comparison _ => "Comparison"
  | .assignment => "Assignment"
  | .openParen | .closeParen => "Paren"
  | .comma => "Comma"

/-- The text of the lexeme; of a string what stands between the quotes. -/
def text : Lexeme → String
  | .number spelling _ => spelling
  | .string text => text
  | .identifier name => name
  | .operator sign => sign.text
  | .comparison sign => sign.text
  | .assignment => "->"
  | .openParen => "("
  | .closeParen => ")"
  | .comma => ","

def describe : Lexeme → String
  | .string text => "String(" ++ Text.quote text ++ ")"
  | .comma => "Comma"
  | x => x.kind ++ "(" ++ x.text ++ ")"

end Lexeme

end PocketBasic
