import PocketBasic.Machine.Step

/-!
# What a step can do

`Stepped` lists the outcomes of a step by cases: it waits for input, goes on at the label of a selected
option, ends, passes over a statement, runs one, or fails. `FailsWith` gives the causes for which a step
fails. A host drives the machine by calls, and a property that holds at first and is kept by each call
holds after all of them.
-/

namespace PocketBasic

namespace State

/-- The causes for which a step ends the program with a fault. -/
inductive FailsWith (p : Program) (s : State) (selection : Int) : Fault → Prop
  | goto {line : Nat} {name : String} (hst : p.statements[s.pc]? = some ⟨line, .goto name⟩)
      (hlabel : p.labels.find? name = none) : FailsWith p s selection (.undefinedLabel line name)
  | option {c : Choice} {o : MenuOption} (hc : s.choice = some c) (hsel : 0 ≤ selection)
      (ho : c.options[selection.toNat]? = some o) (hlabel : p.labels.find? o.label = none) :
      FailsWith p s selection (.undefinedLabel c.line o.label)
  | selection {c : Choice} (hc : s.choice = some c)
      (hsel : selection < 0 ∨ c.options.length ≤ selection) :
      FailsWith p s selection (.menuSelection c.line)
  | unbalanced {line : Nat} (hst : p.statements[s.pc]? = some ⟨line, .endMark⟩)
      (hblocks : s.blocks = []) : FailsWith p s selection (.unbalancedEnd line)
  | program {line : Nat} {name : String} (hst : p.statements[s.pc]? = some ⟨line, .program name⟩) :
      FailsWith p s selection (.unsupported line name)

/-- The outcomes of a step, each with the case in which it arises. -/
inductive Stepped (p : Program) (s : State) (selection : Int) : Outcome → Prop
  | waits {name : String} (hwait : s.awaiting = some name) :
      Stepped p s selection ⟨s, .awaiting, []⟩
  | chooses {c : Choice} {o : MenuOption} {i : Nat} (hwait : s.awaiting = none)
      (hc : s.choice = some c) (hsel : 0 ≤ selection)
      (ho : c.options[selection.toNat]? = some o) (hi : p.labels.find? o.label = some i) :
      Stepped p s selection ({ s with choice := none, pc := i } : State).proceed
  | ends (hwait : s.awaiting = none) (hc : s.choice = none) (hst : p.statements[s.pc]? = none) :
      Stepped p s selection ⟨s, .halted none, []⟩
  | passes {st : Statement} (hwait : s.awaiting = none) (hc : s.choice = none)
      (hst : p.statements[s.pc]? = some st) (hskip : s.skipping = true) :
      Stepped p s selection (s.pass p st.command).proceed
  | runs {st : Statement} {o : Outcome} (hwait : s.awaiting = none) (hc : s.choice = none)
      (hst : p.statements[s.pc]? = some st) (hskip : s.skipping = false)
      (hrun : s.run p st.line st.command = .ok o) : Stepped p s selection o
  | fails {fault : Fault} (hwait : s.awaiting = none) (hfault : FailsWith p s selection fault) :
      Stepped p s selection (s.halt p fault)

variable {p : Program} {s s' : State} {selection : Int} {c : Choice} {fault : Fault} {o : Outcome}

section Statements

variable {line : Nat} {command : Command}

theorem step_of_skipping (hwait : s.awaiting = none) (hchoice : s.choice = none)
    (hskipping : s.skipping = true) (hst : p.statements[s.pc]? = some ⟨line, command⟩) (selection : Int) :
    s.step p selection = (s.pass p command).proceed := by
  simp only [step, hwait, hchoice, hst, hskipping, if_true]

theorem step_of_running (hwait : s.awaiting = none) (hchoice : s.choice = none)
    (hskipping : s.skipping = false) (hst : p.statements[s.pc]? = some ⟨line, command⟩)
    (hrun : s.run p line command = .ok o) (selection : Int) : s.step p selection = o := by
  simp only [step, hwait, hchoice, hst, hskipping, Bool.false_eq_true, if_false, hrun]

end Statements

theorem jump_eq_error {label : String} {line : Nat} (h : s.jump p label line = .error fault) :
    p.labels.find? label = none ∧ fault = .undefinedLabel line label := by
  unfold jump at h
  split at h <;> cases h
  exact ⟨‹_›, rfl⟩

theorem jump_eq_ok {label : String} {line : Nat} (h : s.jump p label line = .ok s') :
    ∃ i, p.labels.find? label = some i ∧ s' = { s with pc := i } := by
  unfold jump at h
  split at h <;> cases h
  exact ⟨_, ‹_›, rfl⟩

theorem runEnd_eq_error {line : Nat} (h : s.runEnd p line = .error fault) :
    s.blocks = [] ∧ fault = .unbalancedEnd line := by
  unfold runEnd at h
  split at h
  · cases h
    exact ⟨‹_›, rfl⟩
  · simp only at h
    split at h
    · cases h
    · cases h
    · split at h <;> cases h
    · cases h

theorem map_proceed_eq_error {r : Except Fault State} (h : r.map proceed = .error fault) :
    r = .error fault := by
  cases r with
  | error e =>
    cases h
    rfl
  | ok s => cases h

theorem map_proceed_eq_ok {r : Except Fault State} (h : r.map proceed = .ok o) :
    ∃ s', r = .ok s' ∧ o = s'.proceed := by
  cases r with
  | error e => cases h
  | ok s =>
    cases h
    exact ⟨s, rfl, rfl⟩

theorem failsWith_of_run {st : Statement} (hst : p.statements[s.pc]? = some st)
    (h : s.run p st.line st.command = .error fault) : FailsWith p s selection fault := by
  obtain ⟨line, command⟩ := st
  cases command with
  | goto name =>
    obtain ⟨hlabel, rfl⟩ := jump_eq_error (map_proceed_eq_error h)
    exact .goto hst hlabel
  | endMark =>
    obtain ⟨hblocks, rfl⟩ := runEnd_eq_error (map_proceed_eq_error h)
    exact .unbalanced hst hblocks
  | program name =>
    cases h
    exact .program hst
  | pause value => cases value <;> cases h
  | input prompt var => cases prompt <;> cases h
  | _ => cases h

theorem stepped_resume (p : Program) (selection : Int) (hwait : s.awaiting = none) (hc : s.choice = some c) :
    (∃ o, s.resume p c selection = .ok o ∧ Stepped p s selection o) ∨
      ∃ fault, s.resume p c selection = .error fault ∧ FailsWith p s selection fault := by
  unfold resume
  by_cases hneg : selection < 0
  · rw [if_pos hneg]
    exact .inr ⟨_, rfl, .selection hc (.inl hneg)⟩
  · rw [if_neg hneg]
    have hsel : 0 ≤ selection := Int.not_lt.mp hneg
    cases ho : c.options[selection.toNat]? with
    | none =>
      have hlen := List.getElem?_eq_none_iff.mp ho
      exact .inr ⟨_, rfl, .selection hc (.inr (by omega))⟩
    | some o =>
      cases hj : ({ s with choice := none } : State).jump p o.label c.line with
      | error e =>
        obtain ⟨hlabel, rfl⟩ := jump_eq_error hj
        refine .inr ⟨_, ?_, .option hc hsel ho hlabel⟩
        simp only [hj]
        rfl
      | ok s' =>
        obtain ⟨i, hi, rfl⟩ := jump_eq_ok hj
        refine .inl ⟨_, ?_, .chooses hwait hc hsel ho hi⟩
        simp only [hj]
        rfl

theorem stepped_step (p : Program) (s : State) (selection : Int) :
    Stepped p s selection (s.step p selection) := by
  unfold step
  cases hwait : s.awaiting with
  | some name => exact .waits hwait
  | none =>
    cases hc : s.choice with
    | some c =>
      rcases stepped_resume p selection hwait hc with ⟨o, ho, hs⟩ | ⟨fault, hf, hs⟩
      · simp only [ho]
        exact hs
      · simp only [hf]
        exact .fails hwait hs
    | none =>
      cases hst : p.statements[s.pc]? with
      | none => exact .ends hwait hc hst
      | some st =>
        cases hskip : s.skipping with
        | true => exact .passes hwait hc hst hskip
        | false =>
          simp only [Bool.false_eq_true, if_false]
          cases hrun : s.run p st.line st.command with
          | ok o => exact .runs hwait hc hst hskip hrun
          | error fault => exact .fails hwait (failsWith_of_run hst hrun)

end State

/-- What a host may do with a running program. A step is given the option that the menu highlights at
that moment, so a change of the selection is part of the next step. -/
inductive HostCall where
  | step (selection : Int)
  | input (line : String)
  | key (code : Int)
  | assign (name : String) (v : Value)

namespace HostCall

def apply (p : Program) (s : State) : HostCall → State
  | .step selection => (s.step p selection).state
  | .input line => s.setInput line
  | .key code => s.setKey code
  | .assign name v => s.setVar name v

/-- The state of a program after calls from its start. -/
def run (p : Program) (dice : Dice) (calls : List HostCall) : State :=
  calls.foldl (apply p) (.initial dice)

theorem run_induction {p : Program} {P : State → Prop} (dice : Dice) (calls : List HostCall)
    (initial : P (.initial dice)) (kept : ∀ s call, P s → P (apply p s call)) :
    P (run p dice calls) := by
  unfold run
  generalize State.initial dice = s at initial
  induction calls generalizing s with
  | nil => exact initial
  | cons call calls ih => exact ih (apply p s call) (kept s call initial)

end HostCall

end PocketBasic
