import PocketBasic.Proofs.Machine.Stepped

/-!
# What is pending after a step

A program waits for a line of input, for the selection of a menu option, or for nothing. `Status.Fits`
says which of them goes with which status, and every step returns a status that fits the state it
leaves.
-/

namespace PocketBasic

/-- What is pending in a state that was left with the status. A halted program has no statement left. -/
def Status.Fits (p : Program) (s : State) : Status → Prop
  | .running | .paused => s.awaiting = none ∧ s.choice = none
  | .awaiting => s.isAwaiting = true ∧ s.choice = none
  | .choosing => s.awaiting = none ∧ s.choice.isSome = true
  | .halted _ => s.hasMore p = false ∧ s.awaiting = none ∧ s.choice = none

namespace State

variable {p : Program} {s s' : State} {selection : Int} {o : Outcome}

theorem next_startSkipUnless (s : State) (b : Bool) :
    (s.startSkipUnless b).next = s.next.startSkipUnless b := by
  cases b <;> rfl

theorem runFor_eq (s : State) (var : String) (start stop step : Expr) :
    ∃ m started b, s.runFor var start stop step =
      ({ s.push s.pc with memory := m, started := started }.next).startSkipUnless b := by
  unfold runFor
  cases s.started.has s.pc with
  | true => exact ⟨_, _, _, next_startSkipUnless _ _⟩
  | false => exact ⟨_, _, _, next_startSkipUnless _ _⟩

structure SamePending (s s' : State) : Prop where
  awaiting : s'.awaiting = s.awaiting
  choice : s'.choice = s.choice

theorem samePending_startSkipUnless (s : State) (b : Bool) :
    SamePending s (s.startSkipUnless b) := by
  cases b <;> exact ⟨rfl, rfl⟩

theorem samePending_runFor (s : State) (var : String) (start stop step : Expr) :
    SamePending s (s.runFor var start stop step) := by
  obtain ⟨m, started, b, hrun⟩ := runFor_eq s var start stop step
  rw [hrun]
  have h := samePending_startSkipUnless
    ({ s.push s.pc with memory := m, started := started } : State).next b
  exact ⟨h.awaiting, h.choice⟩

theorem samePending_runIf (s : State) (p : Program) (cond : Expr) :
    SamePending s (s.runIf p cond) := by
  simp only [runIf, eval]
  split
  · have h := samePending_startSkipUnless
      ({ s.push s.pc with
        memory := (cond.eval s.memory).2
        taken := s.taken.put s.pc (cond.eval s.memory).1.truthy
        pc := s.pc + 2 } : State) (cond.eval s.memory).1.truthy
    exact ⟨h.awaiting, h.choice⟩
  · exact ⟨rfl, rfl⟩

theorem samePending_runElse (s : State) : SamePending s s.runElse := by
  unfold runElse
  rw [next_startSkipUnless]
  have h := samePending_startSkipUnless
    ({ s with blocks := s.pc :: s.blocks.tail, taken := s.taken.clear (s.blocks.headD 0) } : State).next
    (!s.taken.has (s.blocks.headD 0))
  exact ⟨h.awaiting, h.choice⟩

theorem samePending_runEnd {line : Nat} (h : s.runEnd p line = .ok s') : SamePending s s' := by
  unfold runEnd at h
  split at h
  · cases h
  · simp only at h
    split at h
    · cases h
      split <;> exact ⟨rfl, rfl⟩
    · cases h
      exact ⟨rfl, rfl⟩
    · split at h <;> cases h <;> exact ⟨rfl, rfl⟩
    · cases h
      exact ⟨rfl, rfl⟩

theorem samePending_pass (s : State) (p : Program) (command : Command) :
    SamePending s (s.pass p command) := by
  cases command <;> exact ⟨rfl, rfl⟩

theorem SamePending.fits_running (h : SamePending s s') (hwait : s.awaiting = none)
    (hc : s.choice = none) : Status.running.Fits p s' :=
  ⟨h.awaiting.trans hwait, h.choice.trans hc⟩

@[simp] theorem proceed_status (s : State) : s.proceed.status = .running := rfl

@[simp] theorem ask_status (s : State) (prompt name : String) :
    (s.ask prompt name).status = .awaiting := rfl

theorem status_runPrompt (s : State) (vars : List String) :
    (s.runPrompt vars).status = .awaiting ∧ (s.runPrompt vars).state.isAwaiting = true ∨
      (s.runPrompt vars).status = .running ∧ (s.runPrompt vars).state.awaiting = s.awaiting := by
  unfold runPrompt
  split
  · exact .inr ⟨rfl, rfl⟩
  · exact .inl ⟨rfl, rfl⟩

theorem status_run_ne_halted {line : Nat} {command : Command} {fault : Option Fault}
    (h : s.run p line command = .ok o) : o.status ≠ .halted fault := by
  cases command with
  | goto name =>
    obtain ⟨s', -, rfl⟩ := map_proceed_eq_ok h
    simp
  | endMark =>
    obtain ⟨s', -, rfl⟩ := map_proceed_eq_ok h
    simp
  | prompt vars =>
    cases h
    rcases status_runPrompt s vars with ⟨hs, -⟩ | ⟨hs, -⟩
    · rw [hs]
      simp
    · rw [hs]
      simp
  | pause value => cases value <;> cases h <;> simp
  | input prompt var => cases prompt <;> cases h <;> simp
  | program name => cases h
  | _ =>
    cases h
    simp

/-- A fault comes from one of the causes, and then the step has ended the program and done nothing else. -/
theorem failed_of_status {fault : Fault} (h : (s.step p selection).status = .halted (some fault)) :
    FailsWith p s selection fault ∧ s.step p selection = s.halt p fault := by
  have hstep := stepped_step p s selection
  generalize s.step p selection = o at hstep h ⊢
  cases hstep with
  | waits _ => cases h
  | chooses _ _ _ _ _ => cases h
  | ends _ _ _ => cases h
  | passes _ _ _ _ => cases h
  | runs _ _ _ _ hrun => exact absurd h (status_run_ne_halted hrun)
  | fails _ hf =>
    cases h
    exact ⟨hf, rfl⟩

theorem fits_runPrompt (hwait : s.awaiting = none) (hc : s.choice = none) (vars : List String) :
    (s.runPrompt vars).status.Fits p (s.runPrompt vars).state := by
  unfold runPrompt
  split
  · exact ⟨hwait, hc⟩
  · simp only
    split <;> exact ⟨rfl, hc⟩

theorem fits_run {line : Nat} {command : Command} (hwait : s.awaiting = none) (hc : s.choice = none)
    (h : s.run p line command = .ok o) : o.status.Fits p o.state := by
  cases command with
  | goto name =>
    obtain ⟨s', hj, rfl⟩ := map_proceed_eq_ok h
    obtain ⟨i, -, rfl⟩ := jump_eq_ok hj
    exact ⟨hwait, hc⟩
  | endMark =>
    obtain ⟨s', hend, rfl⟩ := map_proceed_eq_ok h
    exact (samePending_runEnd hend).fits_running (p := p) hwait hc
  | forLoop var start stop step =>
    cases h
    exact (samePending_runFor s var start stop step).fits_running (p := p) hwait hc
  | ifTest cond =>
    cases h
    exact (samePending_runIf s p cond).fits_running (p := p) hwait hc
  | elseMark =>
    cases h
    exact (samePending_runElse s).fits_running (p := p) hwait hc
  | whileLoop cond =>
    cases h
    have hs := samePending_startSkipUnless ((s.push s.pc).eval cond).2
      ((s.push s.pc).eval cond).1.truthy
    exact hs.fits_running (p := p) hwait hc
  | prompt vars =>
    cases h
    exact fits_runPrompt hwait hc vars
  | pause value => cases value <;> cases h <;> exact ⟨hwait, hc⟩
  | input prompt var => cases prompt <;> cases h <;> exact ⟨rfl, hc⟩
  | menu title options =>
    cases h
    exact ⟨hwait, rfl⟩
  | program name => cases h
  | _ =>
    cases h
    exact ⟨hwait, hc⟩

theorem fits_step (p : Program) (selection : Int) (h : s.awaiting = none ∨ s.choice = none) :
    (s.step p selection).status.Fits p (s.step p selection).state := by
  have hstep := stepped_step p s selection
  generalize s.step p selection = o at hstep ⊢
  cases hstep with
  | waits hwait =>
    rcases h with hnone | hc
    · rw [hnone] at hwait
      cases hwait
    · exact ⟨by rw [isAwaiting, hwait]; rfl, hc⟩
  | chooses hwait _ _ _ _ => exact ⟨hwait, rfl⟩
  | ends hwait hc hst =>
    have hpc := List.getElem?_eq_none_iff.mp hst
    exact ⟨decide_eq_false (Nat.not_lt.mpr hpc), hwait, hc⟩
  | passes hwait hc _ _ => exact (samePending_pass s p _).fits_running (p := p) hwait hc
  | runs hwait hc _ _ hrun => exact fits_run hwait hc hrun
  | fails _ _ => exact ⟨decide_eq_false (Nat.lt_irrefl _), rfl, rfl⟩

end State

end PocketBasic
