import PocketBasic.Command.Script
import PocketBasic.Journal.Basic

/-!
# The course of a command

While a command runs it has a journal, prints text and reports faults. A fault ends it with an exit
code. What has been printed, reported and entered into the journal before stays.
-/

namespace PocketBasic.Command

/-- What a command has produced so far. -/
structure Desk where
  journal : Option Journal := none
  /-- The text on standard output. -/
  output : String := ""
  /-- The lines on standard error. -/
  reports : List String := []

abbrev Work := ExceptT Nat (StateT Desk Script)

namespace Work

def report (line : String) : Work Unit :=
  modify fun d => { d with reports := d.reports ++ [line] }

def print (text : String) : Work Unit := modify fun d => { d with output := d.output ++ text }

def fail {α : Type} (line : String) : Work α := do
  report line
  throw 1

/-- Goes on with a result. A fault is reported behind the given words and ends the command. -/
def orFail {ε α : Type} (words : String) (message : ε → String) : Except ε α → Work α
  | .ok a => pure a
  | .error e => fail (words ++ message e)

def entry (level : Journal.Level) (area : Journal.Area) (time message : String) : Journal.Entry :=
  ⟨level, area, message, time, "command"⟩

/-- Makes an entry in the journal, if there is one and it takes the entry. -/
def note (level : Journal.Level) (area : Journal.Area) (time message : String) : Work Unit := do
  match (← get).journal with
  | none => pure ()
  | some j =>
    let e := entry level area time message
    modify fun d => { d with journal := some (j.log e).1 }
    if !(j.log e).2.isEmpty then report e.report

def noteAll (time : String) : List (Journal.Level × Journal.Area × String) → Work Unit
  | [] => pure ()
  | (level, area, message) :: rest => do
    note level area time message
    noteAll time rest

/-- Ends the command with an entry that the journal always takes. It is reported twice: by the
journal and on leaving. -/
def abort {α : Type} (area : Journal.Area) (time message : String) : Work α := do
  let e := entry .fatal area time message
  modify fun d => { d with journal := d.journal.map (·.append e) }
  report e.report
  fail e.report

end Work

def writeJournal : List (Journal.FileName × List Journal.Entry) → Script Unit
  | [] => pure ()
  | (name, entries) :: rest => do
    let _ ← Script.appendFile name.text (String.join (entries.map (·.text)))
    writeJournal rest

end PocketBasic.Command
