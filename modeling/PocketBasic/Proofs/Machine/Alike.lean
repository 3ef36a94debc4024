import Mathlib
import PocketBasic.Proofs.Machine.FirstUse
import PocketBasic.Program.Compile

/-!
# Unset variables and zeros in a run

Two states are alike if their memories are and all else is the same. Every call of the host keeps them
alike, and what it shows of them is the same. So no run can tell whether a variable was unset or zero at
its start.
-/

namespace PocketBasic

/-- The states differ in variables that are unset in one and zero in the other, and in nothing else. -/
def State.Alike (s t : State) : Prop := ∃ m, s.memory.Alike m ∧ t = { s with memory := m }

namespace State

variable {s t : State}

theorem alike_step (h : s.Alike t) (p : Program) (selection : Int) :
    (s.step p selection).Beside Memory.Alike (t.step p selection) :=
  beside_step Memory.indistinct_alike h p selection

theorem Alike.setVar (h : s.Alike t) (name : String) (v : Value) :
    (s.setVar name v).Alike (t.setVar name v) :=
  Beside.setVar Memory.indistinct_alike h name v

theorem Alike.setInput (h : s.Alike t) (line : String) :
    (s.setInput line).Alike (t.setInput line) :=
  Beside.setInput Memory.indistinct_alike h line

theorem Alike.setKey (h : s.Alike t) (key : Int) : (s.setKey key).Alike (t.setKey key) :=
  Beside.setKey Memory.indistinct_alike h key

end State

namespace HostCall

/-- What a call shows to the host: the status and the signals of a step, and the position that the program
has come to. -/
structure Shown where
  status : Option Status
  signals : List Signal
  pc : Nat

def shown (p : Program) (s : State) : HostCall → Shown
  | .step selection =>
    let o := s.step p selection
    ⟨some o.status, o.signals, o.state.pc⟩
  | call => ⟨none, [], (call.apply p s).pc⟩

def shownBy (p : Program) (s : State) : List HostCall → List Shown
  | [] => []
  | call :: calls => call.shown p s :: shownBy p (call.apply p s) calls

variable {p : Program} {s t : State}

theorem alike_apply (h : s.Alike t) (call : HostCall) :
    call.shown p s = call.shown p t ∧ (call.apply p s).Alike (call.apply p t) := by
  have hpc {s t : State} (h : s.Alike t) : s.pc = t.pc := by
    obtain ⟨n, -, rfl⟩ := h
    rfl
  cases call with
  | step selection =>
    have ho := State.alike_step h p selection
    refine ⟨?_, ho.state⟩
    simp only [shown, ho.status, ho.signals, hpc ho.state]
  | input line => exact ⟨by simp only [shown, apply, hpc (h.setInput line)], h.setInput line⟩
  | key code => exact ⟨by simp only [shown, apply, hpc (h.setKey code)], h.setKey code⟩
  | assign name v => exact ⟨by simp only [shown, apply, hpc (h.setVar name v)], h.setVar name v⟩

/-- Whether a variable was unset or zero cannot be told from a run: the same calls show the same in both
cases, and after each of them the states differ again in such variables only. -/
theorem shownBy_eq_of_alike (h : s.Alike t) (calls : List HostCall) :
    shownBy p s calls = shownBy p t calls ∧
      ∀ k, ((calls.take k).foldl (apply p) s).Alike ((calls.take k).foldl (apply p) t) := by
  induction calls generalizing s t with
  | nil => exact ⟨rfl, fun k => by simpa using h⟩
  | cons call calls ih =>
    obtain ⟨hshown, hnext⟩ := alike_apply (p := p) h call
    obtain ⟨hrest, halike⟩ := ih hnext
    refine ⟨?_, fun k => ?_⟩
    · rw [shownBy, shownBy, hshown, hrest]
    · cases k with
      | zero => exact h
      | succ k => exact halike k

end HostCall

/-- A program that reads a variable before it sets any. -/
def untouched : Program :=
  ⟨[⟨1, .disp [.name 1 "Q"]⟩, ⟨2, .compute (.assign 2 (.name 2 "Q") 2 "R")⟩], []⟩

/-- A start where the variable is unset and one where it is zero. -/
theorem shownBy_untouched :
    Program.compile "Disp Q\nQ->R" = .ok untouched ∧
      (State.initial ⟨fun _ => 0, 0⟩).Alike
        ((State.initial ⟨fun _ => 0, 0⟩).setVar "Q" (.number 0)) ∧
      HostCall.shownBy untouched (.initial ⟨fun _ => 0, 0⟩) [.step 0, .key 3, .step 0] =
        HostCall.shownBy untouched ((State.initial ⟨fun _ => 0, 0⟩).setVar "Q" (.number 0))
          [.step 0, .key 3, .step 0] := by
  have hunset : (State.initial ⟨fun _ => 0, 0⟩).memory.vars.get? "Q" = none := by decide
  have halike : (State.initial ⟨fun _ => 0, 0⟩).Alike
      ((State.initial ⟨fun _ => 0, 0⟩).setVar "Q" (.number 0)) :=
    ⟨(Memory.initial ⟨fun _ => 0, 0⟩).set "Q" (.number 0),
      ⟨Variables.alike_set_zero hunset, rfl, rfl⟩, rfl⟩
  exact ⟨by cbv, halike, (HostCall.shownBy_eq_of_alike halike _).1⟩

end PocketBasic
