/-!
# Points in time

A time is a number of seconds since the start of 1970. It is written as a date and a time of day.
-/

namespace PocketBasic.Text

structure Date where
  year : Int
  month : Nat
  day : Nat
deriving DecidableEq, Repr

/-- The date of a day, counted from the start of 1970. Years are taken to start in March, so that
the day that is put in now and then is their last. -/
def Date.ofDays (days : Int) : Date :=
  let shifted := days + 719468
  let era := shifted.fdiv 146097
  let dayOfEra := (shifted.fmod 146097).toNat
  let yearOfEra := (dayOfEra - dayOfEra / 1460 + dayOfEra / 36524 - dayOfEra / 146096) / 365
  let dayOfYear := dayOfEra - (365 * yearOfEra + yearOfEra / 4 - yearOfEra / 100)
  let monthFromMarch := (5 * dayOfYear + 2) / 153
  let day := dayOfYear - (153 * monthFromMarch + 2) / 5 + 1
  let month := if monthFromMarch < 10 then monthFromMarch + 3 else monthFromMarch - 9
  ⟨yearOfEra + era * 400 + (if month ≤ 2 then 1 else 0), month, day⟩

def zeroPadded (width n : Nat) : String :=
  let digits := toString n
  String.ofList (List.replicate (width - digits.length) '0') ++ digits

/-- The date of a time in the form `2006-01-02`. -/
def dateText (seconds : Int) : String :=
  let date := Date.ofDays (seconds.fdiv 86400)
  zeroPadded 4 date.year.toNat ++ "-" ++ zeroPadded 2 date.month ++ "-" ++ zeroPadded 2 date.day

/-- The time of day in the form `15:04:05`. -/
def clockText (seconds : Int) : String :=
  let ofDay := (seconds.fmod 86400).toNat
  zeroPadded 2 (ofDay / 3600) ++ ":" ++ zeroPadded 2 (ofDay / 60 % 60) ++ ":" ++
    zeroPadded 2 (ofDay % 60)

/-- A time in the form `2006-01-02T15:04:05Z`. -/
def timestamp (seconds : Int) : String := dateText seconds ++ "T" ++ clockText seconds ++ "Z"

/-- A time in milliseconds in the form `2006-01-02 15:04:05.000`. -/
def journalTime (milliseconds : Int) : String :=
  let seconds := milliseconds.fdiv 1000
  dateText seconds ++ " " ++ clockText seconds ++ "." ++ zeroPadded 3 (milliseconds.fmod 1000).toNat

end PocketBasic.Text
