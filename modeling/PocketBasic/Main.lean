import PocketBasic.Command.Packages
import PocketBasic.Console.View
import PocketBasic.Text.Timestamp
import Std.Time.DateTime.Timestamp

/-!
# The command on a computer

Scripts are carried out on the files of the computer. The terminal is read line by line: a line is
typed key by key and ends with the enter key.
-/

namespace PocketBasic.Command

def placeOnDisk (path : String) : IO Place := do
  try
    let bytes ← IO.FS.readBinFile path
    return .file (Text.ofUtf8 bytes.toList)
  catch
    | .noFileOrDirectory .. => return .missing
    | .inappropriateType none .. => return .folder
    | .inappropriateType (some _) .. => return .barred .notFolder
    | .invalidArgument .. => return .barred .nameTooLong
    | e => throw e

def Script.perform {α : Type} : Script α → IO α
  | .done a => pure a
  | .look path next => do (next (← placeOnDisk path)).perform
  | .put path text next => do
    IO.FS.writeFile path text
    next.perform
  | .addFolder path next => do
    IO.FS.createDirAll path
    next.perform

/-- The number of ticks that a program runs for between two lines. -/
def ticksPerLine : Nat := 2000

/-- Shows the calculator and passes on lines until one of their keys quits or they end. -/
partial def converse (p : Console.Panel) : IO Unit := do
  let p := { p with calculator := (p.calculator.ticks ticksPerLine).2 }
  for line in p.view do
    IO.println line
  let line ← (← IO.getStdin).getLine
  unless line.isEmpty do
    let keys := Console.Key.ofLine (line.toList.filter fun c => c ≠ '\n' && c ≠ '\r')
    unless keys.any Console.Key.isQuit do
      converse (keys.foldl (fun p k => (p.key k).1) p)

def surroundings : IO Surroundings := do
  let seconds := (← Std.Time.Timestamp.now).toSecondsSinceUnixEpoch.val
  let salt ← IO.getRandomBytes 16
  let seed ← IO.getRandomBytes 16
  let secret := (← IO.getEnv "JWT_SECRET_KEY").getD ""
  let adminHash := (← IO.getEnv "ADMIN_PASSWORD_HASH").getD ""
  return {
    packages := .standard
    environment := fun name =>
      if name = "JWT_SECRET_KEY" then secret
      else if name = "ADMIN_PASSWORD_HASH" then adminHash
      else ""
    salt := salt.toList
    now := seconds
    time := Text.journalTime (seconds * 1000)
    dice := diceOf seed.toList }

end PocketBasic.Command

open PocketBasic.Command in
def main (arguments : List String) : IO UInt32 := do
  let outcome ← (run (← surroundings) arguments).perform
  IO.print outcome.output
  for line in outcome.reports do
    IO.eprintln line
  match outcome.ending with
  | .exit code => return code.toUInt32
  | .console calculator _ =>
    converse ⟨calculator, false⟩
    return 0
  | .serve _ addresses =>
    IO.eprintln ("error: no listener for " ++ ", ".intercalate addresses)
    return 1
