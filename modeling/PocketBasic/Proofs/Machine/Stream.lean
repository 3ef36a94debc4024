import Mathlib
import PocketBasic.Proofs.Machine.Passing

/-!
# Between two steps of a host that goes on for ever

A host may press keys and bind variables between two steps. As long as the program waits for nothing, that
changes nothing but the memory.
-/

namespace PocketBasic

def HostCall.IsStep (call : HostCall) : Prop := ∃ selection, call = .step selection

/-- Nothing but the memory has changed, and the variable has kept its value. -/
def State.Lingers (name : String) (s s' : State) : Prop :=
  ∃ m, s' = { s with memory := m } ∧ m.vars.get? name = s.memory.vars.get? name

/-- A machine at a statement that it will run, within the given blocks. -/
structure State.RunsAt (i : Nat) (blocks : List Nat) (s : State) : Prop where
  pc : s.pc = i
  blocks : s.blocks = blocks
  skip : s.skip = none
  awaiting : s.awaiting = none
  choice : s.choice = none

namespace State

variable {name : String} {s s' s'' : State} {i : Nat} {blocks : List Nat}

theorem Lingers.refl (name : String) (s : State) : s.Lingers name s := ⟨s.memory, rfl, rfl⟩

theorem Lingers.trans (h : s.Lingers name s') (h' : s'.Lingers name s'') : s.Lingers name s'' := by
  obtain ⟨m, rfl, hm⟩ := h
  obtain ⟨m', rfl, hm'⟩ := h'
  exact ⟨m', rfl, hm'.trans hm⟩

theorem Lingers.get? (h : s.Lingers name s') : s'.memory.vars.get? name = s.memory.vars.get? name := by
  obtain ⟨m, rfl, hm⟩ := h
  exact hm

theorem Lingers.started (h : s.Lingers name s') : s'.started = s.started := by
  obtain ⟨m, rfl, -⟩ := h
  rfl

theorem Lingers.skipping (h : s.Lingers name s') : s'.skipping = s.skipping := by
  obtain ⟨m, rfl, -⟩ := h
  rfl

theorem Lingers.runsAt (h : s.Lingers name s') (hs : s.RunsAt i blocks) : s'.RunsAt i blocks := by
  obtain ⟨m, rfl, -⟩ := h
  exact ⟨hs.pc, hs.blocks, hs.skip, hs.awaiting, hs.choice⟩

theorem Lingers.passedTo {s₀ : State} {d k : Nat} (h : s.Lingers name s') (hs : s₀.PassedTo d k s) :
    s₀.PassedTo d k s' := by
  obtain ⟨m, rfl, -⟩ := h
  exact hs.withMemory m

theorem RunsAt.skipping (h : s.RunsAt i blocks) : s.skipping = false := by
  simp only [State.skipping, h.skip]

theorem RunsAt.step_eq {p : Program} {line : Nat} {c : Command} {o : Outcome} (h : s.RunsAt i blocks)
    (hst : p.statements[i]? = some ⟨line, c⟩) (hrun : s.run p line c = .ok o) (selection : Int) :
    s.step p selection = o :=
  step_of_running h.awaiting h.choice h.skipping (h.pc ▸ hst) hrun selection

end State

namespace HostCall

variable {p : Program} {s : State} {calls : Nat → HostCall} {name : String} {t : Nat}

theorem lingers_apply {call : HostCall} (hwait : s.awaiting = none) (hcall : ¬ call.IsStep)
    (hleaves : ∀ v, call ≠ .assign name v) : s.Lingers name (apply p s call) := by
  cases call with
  | step selection => exact absurd ⟨selection, rfl⟩ hcall
  | input line =>
    rw [apply, State.setInput, hwait]
    exact .refl name s
  | key code => exact ⟨_, rfl, rfl⟩
  | assign other v =>
    have hne : ¬ name = other := fun h => hleaves v (by rw [h])
    exact ⟨_, rfl, by rw [Memory.set, Variables.get?_set, if_neg hne]⟩

/-- The next step after a moment at which the program waits for nothing. -/
theorem exists_next_step (hwait : (after p s calls t).awaiting = none)
    (hleaves : ∀ t v, calls t ≠ .assign name v) (hstep : ∃ u ≥ t, (calls u).IsStep) :
    ∃ u ≥ t, (calls u).IsStep ∧ (∀ r, t ≤ r → r < u → ¬ (calls r).IsStep) ∧
      ∀ r, t ≤ r → r ≤ u → (after p s calls t).Lingers name (after p s calls r) := by
  classical
  have hnone (r : Nat) (hr : t ≤ r) (hr' : r < Nat.find hstep) : ¬ (calls r).IsStep :=
    fun h => Nat.find_min hstep hr' ⟨hr, h⟩
  obtain ⟨hle, hfirst⟩ := Nat.find_spec hstep
  refine ⟨Nat.find hstep, hle, hfirst, hnone, fun r hr => ?_⟩
  induction r, hr using Nat.le_induction with
  | base => exact fun _ => .refl name _
  | succ r hr ih =>
    intro hr'
    have hlinger := ih (Nat.le_of_succ_le hr')
    have hwait' : (after p s calls r).awaiting = none := by
      obtain ⟨m, hm, -⟩ := hlinger
      rw [hm]
      exact hwait
    exact hlinger.trans (lingers_apply hwait' (hnone r hr hr') (hleaves r))

/-- A machine that skips comes over a balanced stretch, also when the host does other things between its
steps. -/
theorem exists_passedTo {height : Nat} {cs : List Command}
    (hskip : (after p s calls t).skip = some height) (hheight : height ≤ (after p s calls t).blocks.length)
    (hwait : (after p s calls t).awaiting = none) (hchoice : (after p s calls t).choice = none)
    (hcode : Code p (after p s calls t).pc cs) (hcs : Balanced cs)
    (honward : ∀ t, ∃ u ≥ t, (calls u).IsStep) (hleaves : ∀ t v, calls t ≠ .assign name v)
    (k : Nat) (hk : k ≤ cs.length) :
    ∃ d, depthAfter 0 (cs.take k) = some d ∧ ∃ u ≥ t, (calls u).IsStep ∧
      (after p s calls t).PassedTo d k (after p s calls u) ∧
      (after p s calls u).memory.vars.get? name = (after p s calls t).memory.vars.get? name ∧
      ∀ r, t ≤ r → r ≤ u → (after p s calls r).skipping = true := by
  -- From a moment at which the machine has passed over some statements to the next step.
  have hnext {d k u : Nat} (hu : t ≤ u) (hpassed : (after p s calls t).PassedTo d k (after p s calls u))
      (hget : (after p s calls u).memory.vars.get? name = (after p s calls t).memory.vars.get? name)
      (hbefore : ∀ r, t ≤ r → r < u → (after p s calls r).skipping = true) :
      ∃ v ≥ t, (calls v).IsStep ∧ (after p s calls t).PassedTo d k (after p s calls v) ∧
        (after p s calls v).memory.vars.get? name = (after p s calls t).memory.vars.get? name ∧
        ∀ r, t ≤ r → r ≤ v → (after p s calls r).skipping = true := by
    obtain ⟨v, hv, hstep, -, hlingers⟩ :=
      exists_next_step (hpassed.awaiting.trans hwait) hleaves (honward u)
    have hlinger := hlingers v hv (Nat.le_refl v)
    refine ⟨v, Nat.le_trans hu hv, hstep, hlinger.passedTo hpassed, hlinger.get?.trans hget,
      fun r hr hr' => ?_⟩
    rcases Nat.lt_or_ge r u with hlt | hge
    · exact hbefore r hr hlt
    · rw [(hlingers r hge hr').skipping]
      exact hpassed.skipping hskip hheight
  induction k with
  | zero =>
    exact ⟨0, rfl, hnext (Nat.le_refl t) (State.passedTo_start _) rfl fun r hr hr' => by omega⟩
  | succ k ih =>
    obtain ⟨d, hd, u, hu, ⟨selection, hcall⟩, hpassed, hget, hskips⟩ := ih (Nat.le_of_succ_le hk)
    obtain ⟨e, s', he, hstep, hpassed', hmemory⟩ :=
      hpassed.step hskip hheight hwait hchoice hcode hcs hk hd selection
    have hafter : after p s calls (u + 1) = s' := by
      rw [after, hcall, apply, hstep]
      rfl
    refine ⟨e, he, hnext (Nat.le_succ_of_le hu) (hafter ▸ hpassed') ?_ fun r hr hr' =>
      hskips r hr (by omega)⟩
    rw [hafter, hmemory]
    exact hget

end HostCall

end PocketBasic
