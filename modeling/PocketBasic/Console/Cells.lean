import PocketBasic.Text.Cluster
import PocketBasic.Text.Utf8

/-!
# How many cells a terminal uses for a line

A terminal obeys control sequences and shows all else. The parts of a sequence take no cells, a
printable character of the basic set takes one, and any other character is shown with the whole
cluster that it starts.
-/

namespace PocketBasic.Console

open Text Text.Unicode

/-- Wide characters that terminals still show in one cell. -/
def narrowedRanges : Ranges := [(0x2FFC, 0x2FFF), (0x31EF, 0x31EF)]

/-- Wide pictographs that are shown as text unless a picture is asked for. -/
def textPictographRanges : Ranges :=
  [(0x3030, 0x3030), (0x303D, 0x303D), (0x3297, 0x3297), (0x3299, 0x3299), (0x1F202, 0x1F202),
   (0x1F237, 0x1F237), (0x1F260, 0x1F265)]

/-- The cells of one character inside a cluster. Two dashes are longer than all other characters. -/
def charCells (c : Char) : Nat :=
  match breakClass c with
  | .control | .carriageReturn | .lineFeed | .extend | .joiner => 0
  | .regional => 2
  | _ =>
    if isPictograph c then
      if wideRanges.contains c && !textPictographRanges.contains c then 2 else 1
    else if c.toNat = 0x2E3A then 3
    else if c.toNat = 0x2E3B then 4
    else if wideRanges.contains c && !narrowedRanges.contains c then 2
    else 1

/-- The cells of a pictograph after a mark that asks for text or for a picture. -/
def presentedCells (width : Nat) (mark : Char) : Nat :=
  if mark.toNat = 0xFE0E then 1 else if mark.toNat = 0xFE0F then 2 else width

/-- The cells of a cluster. A flag and a syllable are as wide as their first character. -/
def clusterCells : List Char → Nat
  | [] => 0
  | c :: cs =>
    if isPictograph c then cs.foldl presentedCells (charCells c)
    else match breakClass c with
      | .regional | .leading => charCells c
      | _ => cs.foldl (fun w x => w + charCells x) (charCells c)

/-- How far a terminal has come in a control sequence. -/
inductive Sequence where
  /-- Outside any sequence. -/
  | text
  | escape
  | escapeMark
  | control
  | controlNumber
  | controlMark
  | device
  | deviceNumber
  | deviceMark
  /-- A string for the device, up to its end. -/
  | deviceString
  /-- A command for the system, which a bell may end too. -/
  | command
  /-- A string that is passed over. -/
  | message
deriving DecidableEq, Repr

namespace Sequence

def isControl (b : UInt8) : Bool := b < 0x20 && b ≠ 0x18 && b ≠ 0x1A && b ≠ 0x1B

/-- What a byte means wherever it stands: it may start a sequence, and otherwise ends one. -/
def restart (b : UInt8) : Sequence :=
  if b = 0x1B then .escape
  else if b = 0x90 then .device
  else if b = 0x9B then .control
  else if b = 0x9D then .command
  else if b = 0x98 || b = 0x9E || b = 0x9F then .message
  else .text

def afterEscape (b : UInt8) : Sequence :=
  if b = 0x50 then .device
  else if b = 0x5B then .control
  else if b = 0x5D then .command
  else if b = 0x58 || b = 0x5E || b = 0x5F then .message
  else .text

/-- The step of a sequence that has marks from `0x20`, numbers from `0x30` and a last byte from
`0x40`. Control characters do not disturb it. -/
def advance (self mark number last : Sequence) (b : UInt8) : Sequence :=
  if isControl b || b = 0x7F then self
  else if 0x20 ≤ b && b < 0x30 then mark
  else if 0x30 ≤ b && b < 0x40 then number
  else if 0x40 ≤ b && b < 0x7F then last
  else restart b

/-- The step of a string that runs to its end, over all bytes that `holds` names. -/
def advanceString (self : Sequence) (holds : UInt8 → Bool) (b : UInt8) : Sequence :=
  if b = 0x1B then .escape
  else if b = 0x9C || b = 0x18 || b = 0x1A then .text
  else if holds b then self
  else restart b

def step (s : Sequence) (b : UInt8) : Sequence :=
  match s with
  | .text => restart b
  | .escape =>
    if 0x30 ≤ b && b < 0x7F then afterEscape b else advance .escape .escapeMark .text .text b
  | .escapeMark => advance .escapeMark .escapeMark .text .text b
  | .control => advance .control .controlMark .controlNumber .text b
  | .controlNumber => advance .controlNumber .controlMark .controlNumber .text b
  | .controlMark => advance .controlMark .controlMark .text .text b
  | .device =>
    if (0x08 ≤ b && b < 0x0E) || b = 0x1B then .deviceString
    else advance .device .deviceMark .deviceNumber .deviceString b
  | .deviceNumber => advance .deviceNumber .deviceMark .deviceNumber .deviceString b
  | .deviceMark => advance .deviceMark .deviceMark .deviceString .deviceString b
  | .deviceString => advanceString .deviceString (fun _ => true) b
  | .command => if b = 0x07 then .text else advanceString .command (fun _ => true) b
  | .message => advanceString .message (· < 0x80) b

/-- The strings that take in characters of any kind. -/
def takesAll (s : Sequence) : Bool := s = .deviceString || s = .command

end Sequence

def isBasicPrintable (c : Char) : Bool := ' ' ≤ c && c ≤ '~'

def cellsFrom (s : Sequence) : List Char → Nat
  | [] => 0
  | c :: cs =>
    if c.toNat < 0x80 then
      (if s = .text && isBasicPrintable c then 1 else 0) + cellsFrom (s.step c.toNat.toUInt8) cs
    else if s.takesAll then cellsFrom ((utf8 c.toString).foldl Sequence.step s) cs
    else
      let split := (ClusterState.start c).rest cs
      clusterCells (c :: split.1) + cellsFrom .text split.2
termination_by cs => cs.length
decreasing_by
  · simp
  · simp
  · exact Nat.lt_succ_of_le (ClusterState.length_rest_le _ _)

def cells (cs : List Char) : Nat := cellsFrom .text cs

end PocketBasic.Console
