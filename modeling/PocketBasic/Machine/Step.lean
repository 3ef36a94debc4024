import PocketBasic.Machine.Eval
import PocketBasic.Machine.State

/-!
# Running a program one statement at a time

A step runs or passes over exactly one statement. It changes nothing but the state and reports what
it asks of the screen and the menu. A fault ends the program.
-/

namespace PocketBasic

namespace State

def eval (s : State) (x : Expr) : Value × State :=
  let (v, m) := x.eval s.memory
  (v, { s with memory := m })

def evalList (s : State) (xs : List Expr) : List Value × State :=
  let (vs, m) := Expr.evalList xs s.memory
  (vs, { s with memory := m })

def lookup (s : State) (name : String) : Value × State :=
  let (v, m) := s.memory.lookup name
  (v, { s with memory := m })

/-- Whether the variable of a loop is still within its bounds, in the direction of the step. -/
def withinBounds (s : State) (var : String) (stop step : Expr) : Bool × State :=
  let (v, s₁) := s.lookup var
  let (last, s₂) := s₁.eval stop
  let (d, s₃) := s₂.eval step
  let inside : Bool :=
    if d.toNumber < 0 then last.toNumber ≤ v.toNumber else v.toNumber ≤ last.toNumber
  (inside, s₃)

/-- Passes over a statement inside a branch or body that is not run. Only the nesting of blocks is
followed. -/
def pass (s : State) (p : Program) (command : Command) : State :=
  match command with
  | .whileLoop _ | .repeatLoop _ | .forLoop .. | .thenMark => (s.push s.pc).next
  | .elseMark =>
    { s with
      blocks := s.pc :: s.blocks.tail
      skip := if s.skip = some s.blocks.length then none else s.skip
      pc := s.pc + 1 }
  | .endMark =>
    let started := match s.blocks with
      | i :: _ => match p.statements[i]? with
        | some ⟨_, .forLoop ..⟩ => s.started.clear i
        | _ => s.started
      | [] => s.started
    let taken := match s.blocks with
      | i :: _ => s.taken.clear i
      | [] => s.taken
    let blocks := s.blocks.tail
    { s with
      blocks := blocks
      started := started
      taken := taken
      skip := s.skip.filter (· ≤ blocks.length)
      pc := s.pc + 1 }
  | _ => s.next

def jump (s : State) (p : Program) (label : String) (line : Nat) : Except Fault State :=
  match p.labels.find? label with
  | some i => .ok { s with pc := i }
  | none => .error (.undefinedLabel line label)

def halt (s : State) (p : Program) (fault : Fault) : Outcome :=
  ⟨{ s with pc := p.length, awaiting := none, choice := none }, .halted (some fault), []⟩

def proceed (s : State) : Outcome := ⟨s, .running, []⟩

def ask (s : State) (prompt name : String) : Outcome :=
  ⟨{ s with awaiting := some name }, .awaiting, [.display (.string prompt)]⟩

def runFor (s : State) (var : String) (start stop step : Expr) : State :=
  let s₁ := if s.started.has s.pc then s
    else
      let (v, s') := s.eval start
      { s' with
        memory := s'.memory.set var (.number v.toNumber)
        started := s'.started.mark s'.pc }
  let (inside, s₂) := (s₁.push s₁.pc).withinBounds var stop step
  (s₂.startSkipUnless inside).next

/-- A test before Then opens a block; any other guards one statement. -/
def runIf (s : State) (p : Program) (cond : Expr) : State :=
  let (v, s₁) := s.eval cond
  match p.statements[s₁.pc + 1]? with
  | some ⟨_, .thenMark⟩ =>
    let s₂ := { s₁.push s₁.pc with taken := s₁.taken.put s₁.pc v.truthy, pc := s₁.pc + 2 }
    s₂.startSkipUnless v.truthy
  | _ => { s₁ with pc := if v.truthy then s₁.pc + 1 else s₁.pc + 2 }

def runElse (s : State) : State :=
  let top := s.blocks.headD 0
  let s₁ := { s with blocks := s.pc :: s.blocks.tail, taken := s.taken.clear top }
  (s₁.startSkipUnless (!s.taken.has top)).next

/-- Closes the innermost block. A loop goes back to its header or on behind the end. -/
def runEnd (s : State) (p : Program) (line : Nat) : Except Fault State :=
  match s.blocks with
  | [] => .error (.unbalancedEnd line)
  | i :: rest =>
    let s₁ := { s with blocks := rest }
    match p.statements[i]? with
    | some ⟨_, .repeatLoop cond⟩ =>
      let (v, s₂) := s₁.eval cond
      .ok (if v.truthy then s₂.next else { s₂ with pc := i })
    | some ⟨_, .whileLoop _⟩ => .ok { s₁ with pc := i }
    | some ⟨_, .forLoop var _ stop step⟩ =>
      let (inside, s₂) := s₁.withinBounds var stop step
      if inside then
        let (d, s₃) := s₂.eval step
        let (v, s₄) := s₃.lookup var
        let s₅ := s₄.setVar var (.number (v.toNumber + d.toNumber))
        .ok { s₅ with pc := i }
      else .ok { s₂ with started := s₂.started.clear i, pc := s₂.pc + 1 }
    | _ => .ok { s₁ with taken := s₁.taken.clear i, pc := s₁.pc + 1 }

/-- Asks for the next variable of a Prompt; after the last one the program goes on. -/
def runPrompt (s : State) (vars : List String) : Outcome :=
  match vars[s.promptIndex]? with
  | none => proceed { s with promptIndex := 0, pc := s.pc + 1 }
  | some name =>
    let s₁ :=
      if s.promptIndex + 1 = vars.length then { s with promptIndex := 0, pc := s.pc + 1 }
      else { s with promptIndex := s.promptIndex + 1 }
    s₁.ask (name ++ "=?") name

def run (s : State) (p : Program) (line : Nat) : Command → Except Fault Outcome
  | .label _ => .ok s.next.proceed
  | .goto name => (s.jump p name line).map proceed
  | .repeatLoop _ => .ok (s.push s.pc).next.proceed
  | .whileLoop cond =>
    let (v, s₁) := (s.push s.pc).eval cond
    .ok (s₁.startSkipUnless v.truthy).next.proceed
  | .forLoop var start stop step => .ok (s.runFor var start stop step).proceed
  | .ifTest cond => .ok (s.runIf p cond).proceed
  | .thenMark => .ok (s.push s.pc).next.proceed
  | .elseMark => .ok s.runElse.proceed
  | .endMark => (s.runEnd p line).map proceed
  | .disp args =>
    let (vs, s₁) := s.evalList args
    .ok ⟨s₁.next, .running, vs.map .display⟩
  | .output row col value =>
    let (r, s₁) := s.eval row
    let (c, s₂) := s₁.eval col
    let (v, s₃) := s₂.eval value
    .ok ⟨s₃.next, .running,
      [.output (Number.toPosition r.toNumber) (Number.toPosition c.toNumber) v]⟩
  | .clearHome => .ok ⟨s.next, .running, [.clear]⟩
  | .pause none => .ok ⟨s.next, .paused, []⟩
  | .pause (some x) =>
    let (v, s₁) := s.eval x
    .ok ⟨s₁.next, .paused, [.display v]⟩
  | .menu title options =>
    let (texts, s₁) := s.evalList (options.map (·.text))
    let (t, s₂) := s₁.eval title
    .ok ⟨{ s₂ with choice := some ⟨line, options⟩ }, .choosing,
      [.menu t.text (texts.map (·.text))]⟩
  | .input none var => .ok (s.next.ask "?" var)
  | .input (some x) var =>
    let (v, s₁) := s.eval x
    .ok (s₁.next.ask v.text var)
  | .prompt vars => .ok (s.runPrompt vars)
  | .compute x =>
    let (v, s₁) := s.eval x
    .ok (s₁.setVar Memory.answerName v).next.proceed
  | .program name => .error (.unsupported line name)

def resume (s : State) (p : Program) (c : Choice) (selection : Int) : Except Fault Outcome :=
  if selection < 0 then .error (.menuSelection c.line)
  else match c.options[selection.toNat]? with
    | none => .error (.menuSelection c.line)
    | some option => ({ s with choice := none }.jump p option.label c.line).map proceed

/-- Runs or passes over one statement. `selection` is the option that the menu highlights. -/
def step (s : State) (p : Program) (selection : Int) : Outcome :=
  match s.awaiting with
  | some _ => ⟨s, .awaiting, []⟩
  | none =>
    let result : Except Fault Outcome := match s.choice with
      | some c => s.resume p c selection
      | none => match p.statements[s.pc]? with
        | none => .ok ⟨s, .halted none, []⟩
        | some st =>
          if s.skipping then .ok (s.pass p st.command).proceed
          else s.run p st.line st.command
    match result with
    | .ok outcome => outcome
    | .error fault => s.halt p fault

end State

end PocketBasic
