import PocketBasic.Proofs.Machine.Pending

/-!
# What the status of a step promises

A step returns `awaiting` exactly if it leaves a question open. A step that returns a fault shows nothing
and does no more than put the program at its end with nothing pending. Once a program has halted, its
steps do nothing at all, whatever the host does to the variables and the key register in between.
-/

namespace PocketBasic

theorem Status.Fits.awaiting_iff {p : Program} {s : State} {status : Status} (h : status.Fits p s) :
    status = .awaiting ↔ s.isAwaiting = true := by
  have hquiet (hne : status ≠ .awaiting) (hwait : s.awaiting = none) :
      status = .awaiting ↔ s.isAwaiting = true := by
    rw [State.isAwaiting, hwait]
    exact iff_of_false hne Bool.false_ne_true
  cases status with
  | awaiting => exact iff_of_true rfl h.1
  | running => exact hquiet (by simp) h.1
  | paused => exact hquiet (by simp) h.1
  | choosing => exact hquiet (by simp) h.1
  | halted _ => exact hquiet (by simp) h.2.1

theorem Status.Fits.onePending {p : Program} {s : State} {status : Status} (h : status.Fits p s) :
    s.awaiting = none ∨ s.choice = none := by
  cases status with
  | awaiting => exact .inr h.2
  | running => exact .inl h.1
  | paused => exact .inl h.1
  | choosing => exact .inl h.1
  | halted _ => exact .inl h.2.1

namespace State

variable {p : Program} {s : State}

structure Over (p : Program) (s : State) : Prop where
  hasMore : s.hasMore p = false
  awaiting : s.awaiting = none
  choice : s.choice = none

theorem Over.step (h : s.Over p) (selection : Int) : s.step p selection = ⟨s, .halted none, []⟩ := by
  have hpc : p.length ≤ s.pc := Nat.not_lt.mp (of_decide_eq_false h.hasMore)
  have hst : p.statements[s.pc]? = none := List.getElem?_eq_none hpc
  simp only [State.step, h.awaiting, h.choice, hst]

theorem Over.apply (h : s.Over p) (call : HostCall) : (call.apply p s).Over p := by
  cases call with
  | step selection =>
    rw [HostCall.apply, h.step]
    exact h
  | input line =>
    rw [HostCall.apply, setInput, h.awaiting]
    exact h
  | key code => exact ⟨h.hasMore, h.awaiting, h.choice⟩
  | assign name v => exact ⟨h.hasMore, h.awaiting, h.choice⟩

theorem Over.run (h : s.Over p) (calls : List HostCall) :
    (calls.foldl (HostCall.apply p) s).Over p := by
  induction calls generalizing s with
  | nil => exact h
  | cons call calls ih => exact ih (h.apply call)

theorem onePending_setInput (s : State) (line : String) :
    (s.setInput line).awaiting = none ∨ (s.setInput line).choice = none := by
  unfold setInput
  split
  · exact .inl rfl
  · next hwait => exact .inl hwait

end State

namespace HostCall

theorem onePending_run (p : Program) (dice : Dice) (calls : List HostCall) :
    (run p dice calls).awaiting = none ∨ (run p dice calls).choice = none := by
  apply run_induction (P := fun s => s.awaiting = none ∨ s.choice = none) dice calls (.inl rfl)
  intro s call h
  cases call with
  | step selection => exact (State.fits_step p selection h).onePending
  | input line => exact s.onePending_setInput line
  | key code => exact h
  | assign name v => exact h

/-- What a host can rely on, whatever it has done before. A step returns `awaiting` if and only if a
question is open after it. A fault comes with nothing shown and the state unchanged but for its end. After
a step that has halted, with a fault or not, every later step halts without a fault, shows nothing and
leaves the state as it is. -/
theorem step_contract (p : Program) (dice : Dice) (calls : List HostCall) (selection : Int) :
    let s := run p dice calls
    let o := s.step p selection
    (o.status = .awaiting ↔ o.state.isAwaiting = true) ∧
      (∀ fault, o.status = .halted (some fault) → o.signals = [] ∧
        o.state = { s with pc := p.length, awaiting := none, choice := none }) ∧
      ∀ fault, o.status = .halted fault → ∀ (later : List HostCall) (selection' : Int),
        let s' := later.foldl (apply p) o.state
        s'.step p selection' = ⟨s', .halted none, []⟩ := by
  intro s o
  have hfits : o.status.Fits p o.state := State.fits_step p selection (onePending_run p dice calls)
  refine ⟨hfits.awaiting_iff, ?_, ?_⟩
  · intro fault hfault
    obtain ⟨-, hhalt⟩ := State.failed_of_status hfault
    have ho : o = s.halt p fault := hhalt
    rw [ho]
    exact ⟨rfl, rfl⟩
  · intro fault hhalted later selection'
    rw [hhalted] at hfits
    obtain ⟨hmore, hwait, hchoice⟩ := hfits
    have hover : o.state.Over p := ⟨hmore, hwait, hchoice⟩
    exact (hover.run later).step selection'

end HostCall

/-- `Menu("","",A)`, where the label of the only option is missing. -/
def astray : Program := ⟨[⟨1, .menu (.text 1 "") [⟨.text 1 "", "A"⟩]⟩], []⟩

/-- The second step reports the missing label, and what the host does after it leads to nothing. -/
theorem step_contract_astray :
    let s := HostCall.run astray ⟨fun _ => 0, 0⟩ [.step 0]
    let o := s.step astray 0
    let s' := (o.state.setInput "1").setVar "A" .null
    o.status = .halted (some (.undefinedLabel 1 "A")) ∧ o.signals = [] ∧
      o.state = { s with pc := 1, awaiting := none, choice := none } ∧
      s'.step astray 0 = ⟨s', .halted none, []⟩ := by
  obtain ⟨-, hfault, hend⟩ := HostCall.step_contract astray ⟨fun _ => 0, 0⟩ [.step 0] 0
  obtain ⟨hsignals, hstate⟩ := hfault (.undefinedLabel 1 "A") rfl
  exact ⟨rfl, hsignals, hstate, hend _ rfl [.input "1", .assign "A" .null] 0⟩

end PocketBasic
