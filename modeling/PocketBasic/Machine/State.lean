import PocketBasic.Machine.Memory
import PocketBasic.Program.Fault
import PocketBasic.Program.Statement

/-!
# The state of a running program

The machine knows only a flat statement list. Open blocks are a stack of positions, and a branch not
taken is passed over statement by statement until the stack is lower than the height noted when
skipping began.
-/

namespace PocketBasic

structure Marks where
  positions : List Nat := []

namespace Marks

def has (m : Marks) (i : Nat) : Bool := m.positions.contains i

def clear (m : Marks) (i : Nat) : Marks := ⟨m.positions.filter (· != i)⟩

def mark (m : Marks) (i : Nat) : Marks := ⟨i :: (m.clear i).positions⟩

def put (m : Marks) (i : Nat) (b : Bool) : Marks := if b then m.mark i else m.clear i

end Marks

/-- What a program asks of the screen and of the menu. -/
inductive Signal where
  | display (v : Value)
  | output (row col : Int) (v : Value)
  | clear
  | menu (title : String) (options : List String)

/-- How the host should go on after a step. -/
inductive Status where
  | running
  | choosing
  | awaiting
  | paused
  | halted (fault : Option Fault)

/-- A menu whose selection is still to be read. -/
structure Choice where
  line : Nat
  options : List MenuOption

structure State where
  memory : Memory
  pc : Nat := 0
  /-- Positions of the openers of the open blocks, the innermost first. -/
  blocks : List Nat := []
  /-- The height of the block stack at which skipping began. -/
  skip : Option Nat := none
  /-- For loops whose variable has been set. -/
  started : Marks := {}
  /-- If statements whose branch was taken. -/
  taken : Marks := {}
  /-- The variable that waits for input. -/
  awaiting : Option String := none
  choice : Option Choice := none
  /-- How many variables of the current Prompt have been asked for. -/
  promptIndex : Nat := 0

structure Outcome where
  state : State
  status : Status
  signals : List Signal := []

namespace State

def initial (dice : Dice) : State := { memory := .initial dice }

def next (s : State) : State := { s with pc := s.pc + 1 }

def push (s : State) (i : Nat) : State := { s with blocks := i :: s.blocks }

/-- Starts to pass over the block on top of the stack. -/
def startSkip (s : State) : State := { s with skip := some s.blocks.length }

def startSkipUnless (s : State) (b : Bool) : State := if b then s else s.startSkip

def skipping (s : State) : Bool :=
  match s.skip with
  | some height => height ≤ s.blocks.length
  | none => false

def hasMore (s : State) (p : Program) : Bool := s.pc < p.length

def isAwaiting (s : State) : Bool := s.awaiting.isSome

/-- Sets the register that the next reading of `getKey` returns. -/
def setKey (s : State) (key : Int) : State := { s with memory := { s.memory with key := key } }

def setVar (s : State) (name : String) (v : Value) : State :=
  { s with memory := s.memory.set name v }

/-- Binds the variable that waits for input; without one nothing happens. -/
def setInput (s : State) (line : String) : State :=
  match s.awaiting with
  | some name => { s with awaiting := none, memory := s.memory.set name (.ofInput line) }
  | none => s

end State

end PocketBasic
