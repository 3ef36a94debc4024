import PocketBasic.Text.Lines

/-!
# Arguments of the command

Options start with one or two dashes and have a value, which follows an equals sign or is the next
argument. They end at the first argument that is no option, or after two dashes alone. The last
value given for an option counts.
-/

namespace PocketBasic.Command

structure Arguments where
  /-- The path of the settings file. -/
  config : String := "settings.cfg"
  /-- The program to run in the terminal. -/
  tui : String := ""
  /-- The password to hash. -/
  hashPassword : String := ""
  /-- The host to write a certificate for. -/
  selfSigned : String := ""
deriving DecidableEq, Repr

inductive ArgumentsError where
  | help
  | malformed (argument : String)
  | unknown (name : String)
  | noValue (name : String)
deriving DecidableEq, Repr

def usage : List String :=
  ["Usage of retrocalc:",
    "  -config string",
    "    \tpath to the settings file (default \"settings.cfg\")",
    "  -hash-password PASSWORD",
    "    \tprint the bcrypt hash of PASSWORD for [Admin] password_hash and exit",
    "  -self-signed HOST",
    "    \twrite a self-signed certificate for HOST to the [TLS] cert files and exit",
    "  -tui NAME",
    "    \trun a stored program NAME or a program FILE in the terminal"]

namespace ArgumentsError

def lines : ArgumentsError → List String
  | .help => usage
  | .malformed argument => ("bad flag syntax: " ++ argument) :: usage
  | .unknown name => ("flag provided but not defined: -" ++ name) :: usage
  | .noValue name => ("flag needs an argument: -" ++ name) :: usage

/-- The exit code. Asking for help is no fault. -/
def code : ArgumentsError → Nat
  | .help => 0
  | _ => 2

end ArgumentsError

namespace Arguments

def set? (a : Arguments) (name value : String) : Option Arguments :=
  match name with
  | "config" => some { a with config := value }
  | "tui" => some { a with tui := value }
  | "hash-password" => some { a with hashPassword := value }
  | "self-signed" => some { a with selfSigned := value }
  | _ => none

/-- The name of an option and its value, if that stands in the same argument. An equals sign at the
very front is not looked for. -/
def splitOption (cs : List Char) : String × Option String :=
  match cs with
  | [] => ("", none)
  | c :: rest => match Text.cut? '=' rest with
    | some (name, value) => (String.ofList (c :: name), some (String.ofList value))
    | none => (String.ofList cs, none)

/-- The text of an option behind its dashes; nothing if an argument is no option. -/
def option? (argument : String) : Option (List Char) :=
  match argument.toList with
  | '-' :: '-' :: rest => some rest
  | '-' :: c :: rest => some (c :: rest)
  | _ => none

def parseFrom (a : Arguments) : List String → Except ArgumentsError Arguments
  | [] => .ok a
  | argument :: rest =>
    if argument = "--" then .ok a
    else match option? argument with
      | none => .ok a
      | some body =>
        if body.isEmpty || body.head? = some '-' || body.head? = some '=' then
          .error (.malformed argument)
        else
          let (name, value?) := splitOption body
          if (a.set? name "").isNone then
            .error (if name = "help" || name = "h" then .help else .unknown name)
          else match value?, rest with
            | some value, rest => ((a.set? name value).getD a).parseFrom rest
            | none, value :: rest => ((a.set? name value).getD a).parseFrom rest
            | none, [] => .error (.noValue name)

def parse (arguments : List String) : Except ArgumentsError Arguments :=
  ({} : Arguments).parseFrom arguments

end Arguments

end PocketBasic.Command
