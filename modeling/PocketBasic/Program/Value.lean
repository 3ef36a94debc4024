import PocketBasic.Number.Literal
import PocketBasic.Number.Shortest
import PocketBasic.Text.Blank

/-!
# Values of the language

Values carry their kind with them. Arithmetic reads any value as a number, conditions read any value
as a truth value, and comparison for equality converts nothing.
-/

namespace PocketBasic

inductive Builtin where
  | sin
  | cos
  | tan
  | arcsin
  | arccos
  | arctan
  | log
  | ln
  | sqrt
  | random
deriving DecidableEq, Repr

inductive Value where
  | null
  | number (n : Float)
  | string (s : String)
  | bool (b : Bool)
  | function (f : Builtin)

namespace Builtin

def name : Builtin → String
  | .sin => "sin"
  | .cos => "cos"
  | .tan => "tan"
  | .arcsin => "arcsin"
  | .arccos => "arccos"
  | .arctan => "arctan"
  | .log => "log"
  | .ln => "ln"
  | .sqrt => "sqrt"
  | .random => "random"

def all : List Builtin :=
  [.sin, .cos, .tan, .arcsin, .arccos, .arctan, .log, .ln, .sqrt, .random]

def ofName? (s : String) : Option Builtin := all.find? (·.name = s)

end Builtin

namespace Value

def kind : Value → String
  | .null => "null"
  | .number _ => "number"
  | .string _ => "string"
  | .bool _ => "bool"
  | .function _ => "function"

def isString : Value → Bool
  | .string _ => true
  | _ => false

/-- The number that arithmetic sees. An empty text is zero, any other text that spells no number is
NaN, and so is a function. -/
def toNumber : Value → Float
  | .null => 0
  | .number n => n
  | .string s =>
    let t := Text.trim s
    if t.isEmpty then 0 else (Number.read? t).getD Number.notANumber
  | .bool b => if b then 1 else 0
  | .function _ => Number.notANumber

def truthy : Value → Bool
  | .null => false
  | .number n => n != 0 && !n.isNaN
  | .string s => !s.isEmpty
  | .bool b => b
  | .function _ => true

/-- Values of one kind with the same content. NaN equals nothing. -/
def same : Value → Value → Bool
  | .null, .null => true
  | .number a, .number b => a == b
  | .string a, .string b => a == b
  | .bool a, .bool b => a == b
  | .function a, .function b => a == b
  | _, _ => false

/-- The text that is shown for a value. Truth values are shown as one and zero, null as zero. -/
def text : Value → String
  | .string s => s
  | .function f => f.name
  | v => Number.render v.toNumber

/-- The value of a line typed by the user: a text if it stands in quotes, else a number, which is
NaN for a line that spells none. -/
def ofInput (line : String) : Value :=
  let cs := Text.trimChars line.toList
  match cs with
  | '"' :: rest =>
    if rest.getLast? = some '"' then .string (String.ofList rest.dropLast)
    else .number Number.notANumber
  | _ => .number ((Number.read? (String.ofList cs)).getD Number.notANumber)

end Value

end PocketBasic
