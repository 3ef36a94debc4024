import PocketBasic.Calculator.KeyMap
import PocketBasic.Machine.Step
import PocketBasic.Number.Integer
import PocketBasic.Program.Compile
import PocketBasic.Screen.Home
import PocketBasic.Screen.Menu

/-!
# The calculator

The calculator runs one program at a time. A clock lets the program take steps, and keys turn into
key numbers, menu selections and typed input. A version number grows whenever something that is
shown may have changed.
-/

namespace PocketBasic

/-- Whether the clock may step the program. -/
inductive RunMode where
  | run
  | pause
  | input
  | done
deriving DecidableEq, Repr

inductive ScreenMode where
  | home
  | menu
deriving DecidableEq, Repr

def RunMode.name : RunMode → String
  | .run => "run"
  | .pause => "pause"
  | .input => "input"
  | .done => "done"

def ScreenMode.name : ScreenMode → String
  | .home => "home"
  | .menu => "menu"

/-- A loaded program and how far it has come. -/
structure Running where
  program : Program
  state : State

structure Calculator where
  keys : KeyMap
  stepsPerTick : Nat
  /-- Random numbers for a program that is loaded while none has run yet. -/
  dice : Dice
  home : Home := .cleared
  menu : Menu := {}
  running : Option Running := none
  name : String := ""
  mode : RunMode := .done
  screen : ScreenMode := .home
  /-- The line typed so far. -/
  input : String := ""
  /-- The key held down, or nothing. -/
  held : String := ""
  fault : Option Fault := none
  version : Nat := 0

namespace Calculator

variable [Text.Typeface]

/-- A calculator without a program. A step rate below one counts as one. -/
def new (keys : KeyMap) (stepsPerTick : Int) (dice : Dice) : Calculator :=
  { keys := keys, stepsPerTick := if 0 < stepsPerTick then stepsPerTick.toNat else 1, dice := dice }

def remainingDice (c : Calculator) : Dice :=
  match c.running with
  | some r => r.state.memory.dice
  | none => c.dice

/-- Starts a compiled program on cleared screens. -/
def start (c : Calculator) (name : String) (program : Program) : Calculator :=
  { c with
    home := .cleared
    menu := .ofOptions "" []
    running := some ⟨program, .initial c.remainingDice⟩
    name := name
    mode := .run
    screen := .home
    input := ""
    held := ""
    fault := none
    version := c.version + 1 }

/-- Compiles and starts a program. A program with a fault changes nothing. -/
def load (c : Calculator) (name source : String) : Except Fault Calculator :=
  (Program.compile source).map (c.start name)

/-- Shows what the program asks for. -/
def perform (c : Calculator) (s : Signal) : Calculator :=
  match s with
  | .display v => { c with home := c.home.display v }
  | .output row col v => { c with home := c.home.output row col v }
  | .clear => { c with home := .cleared }
  | .menu title options => { c with menu := .ofOptions title options }

/-- Changes the modes after a step. -/
def enter (c : Calculator) : Status → Calculator
  | .running => { c with screen := .home, mode := .run }
  | .paused => { c with screen := .home, mode := .pause }
  | .awaiting => { c with screen := .home, mode := .input }
  | .choosing => { c with screen := .menu, mode := .pause }
  | .halted fault => { c with screen := .home, mode := .done, fault := fault }

def step (c : Calculator) (r : Running) : Calculator :=
  let o := r.state.step r.program c.menu.index
  (o.signals.foldl perform { c with running := some ⟨r.program, o.state⟩ }).enter o.status

/-- Takes up to `n` steps while the calculator is in run mode, and says whether it took any. -/
def steps (c : Calculator) : Nat → Bool × Calculator
  | 0 => (false, c)
  | n + 1 =>
    match c.mode, c.running with
    | .run, some r => (true, ((c.step r).steps n).2)
    | _, _ => (false, c)

def tick (c : Calculator) : Bool × Calculator :=
  match c.steps c.stepsPerTick with
  | (true, c') => (true, { c' with version := c'.version + 1 })
  | (false, c') => (false, c')

/-- Beats of the clock, and how many of them took a step. -/
def ticks (c : Calculator) : Nat → Nat × Calculator
  | 0 => (0, c)
  | n + 1 =>
    let (stepped, c₁) := c.tick
    let (count, c₂) := c₁.ticks n
    ((if stepped then 1 else 0) + count, c₂)

/-- A key goes down. Repeats of a held key are ignored until it is released. -/
def keyDown (c : Calculator) (code : String) : Calculator :=
  if code = c.held then c
  else
    let c₁ := { c with held := code, version := c.version + 1 }
    match c.screen with
    | .menu =>
      if code = "ArrowUp" then { c₁ with menu := c.menu.previous }
      else if code = "ArrowDown" then { c₁ with menu := c.menu.next }
      else c₁
    | .home =>
      if code = "Backspace" then { c₁ with input := String.ofList c.input.toList.dropLast } else c₁

def isEnter (code : String) : Bool := code = "Enter" || code = "NumpadEnter"

/-- The part of a text after its beginning `p`. -/
def after? (p s : String) : Option String :=
  if p.toList.isPrefixOf s.toList then some (String.ofList (s.toList.drop p.length)) else none

/-- The number of a digit key of the keyboard or of the numeric pad. -/
def digit? (code : String) : Option Int :=
  match after? "Digit" code with
  | some digits => Number.readInteger? digits
  | none => (after? "Numpad" code).bind Number.readInteger?

/-- Releases a key on the menu screen: Enter and the number of an option go on. -/
def menuKey (c : Calculator) (code : String) : Calculator :=
  if isEnter code then { c with mode := .run }
  else match digit? code with
    | some n =>
      if 1 ≤ n ∧ n ≤ c.menu.labels.length then
        { c with menu := c.menu.select (n - 1), mode := .run }
      else c
    | none => c

def homeKey (c : Calculator) (r : Running) (code key : String) : Calculator :=
  let s₁ := match c.keys.get? code with
    | some n => r.state.setKey n
    | none => r.state
  let line := if c.mode = .input ∧ key.length = 1 then c.input ++ key else c.input
  if isEnter code ∧ (c.mode = .pause ∨ c.mode = .input) then
    { c with running := some ⟨r.program, s₁.setInput line⟩, input := "", mode := .run }
  else { c with running := some ⟨r.program, s₁⟩, input := line }

/-- A key is released. `key` is the character that it produced, if any. -/
def keyUp (c : Calculator) (code key : String) : Calculator :=
  let c₁ := if code = c.held then { c with held := "" } else c
  match c₁.running with
  | none => c₁
  | some r =>
    let c₂ := match c₁.screen with
      | .menu => c₁.menuKey code
      | .home => c₁.homeKey r code key
    { c₂ with version := c₂.version + 1 }

def press (c : Calculator) (code key : String) : Calculator := (c.keyDown code).keyUp code key

def type (c : Calculator) (text : String) : Calculator :=
  text.toList.foldl (fun c x => c.press ("Key" ++ String.singleton x) (String.singleton x)) c

end Calculator

end PocketBasic
