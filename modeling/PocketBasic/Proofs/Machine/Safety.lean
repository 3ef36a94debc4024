import Mathlib
import PocketBasic.Proofs.Machine.Running

/-!
# The safety invariant of the machine

Every call of the host keeps the state sound. So each look-up that a step makes is in range, and a step
fails only for the causes in `FailsWith`.
-/

namespace PocketBasic

namespace State

variable {p : Program} {s s' : State} {st : Statement} {o : Outcome}

theorem sound_step (hp : p.Accepted) (h : Sound p s) (selection : Int) :
    Sound p (s.step p selection).state := by
  have hstep := stepped_step p s selection
  generalize s.step p selection = o at hstep ⊢
  cases hstep with
  | waits _ => exact h
  | chooses hwait hc _ _ hi =>
    obtain ⟨title, hst⟩ := h.choice _ hc
    have hlt := hp.label _ _ hi
    exact sound_of_settled (Nat.le_succ_of_le (Nat.le_of_lt hlt)) h.blocks h.skip rfl
      (h.promptIndex_eq_zero hst (by simp))
  | ends _ _ _ => exact h
  | passes _ hc hst hskip => exact sound_pass h hc hst hskip
  | runs hwait hc hst hskip hrun => exact sound_run hp h hwait hc hst hskip hrun
  | fails _ hf => exact sound_halt h hf

theorem sound_apply (hp : p.Accepted) (h : Sound p s) (call : HostCall) :
    Sound p (call.apply p s) := by
  cases call with
  | step selection => exact sound_step hp h selection
  | input line => exact sound_setInput h line
  | key code => exact h.congr rfl rfl rfl (.inr rfl) rfl rfl
  | assign name v => exact h.congr rfl rfl rfl (.inr rfl) rfl rfl

/-- What the invariant means for the next step: no statement is run while a skip height is noted, every
position that is looked up is in range, an option beyond the last is refused, and a fault has one of
its causes. -/
structure Safe (p : Program) (s : State) : Prop where
  skipping : s.skip ≠ none → s.skipping = true
  statement : s.hasMore p = true → ∃ st, p.statements[s.pc]? = some st
  opener : ∀ i ∈ s.blocks, ∃ st, p.statements[i]? = some st
  asked : ∀ line vars, p.statements[s.pc]? = some ⟨line, .prompt vars⟩ →
    ∃ name, vars[s.promptIndex]? = some name
  selected : ∀ (c : Choice) (selection : Int), s.choice = some c →
    selection < 0 ∨ c.options.length ≤ selection → (s.step p selection).status =
      .halted (some (.menuSelection c.line))
  fault : ∀ selection fault, (s.step p selection).status = .halted (some fault) →
    FailsWith p s selection fault

theorem statement_of_lt {i : Nat} (h : i < p.length) : ∃ st, p.statements[i]? = some st :=
  ⟨_, List.getElem?_eq_getElem h⟩

theorem step_menuSelection {c : Choice} {selection : Int} (hwait : s.awaiting = none)
    (hc : s.choice = some c) (hsel : selection < 0 ∨ c.options.length ≤ selection) :
    (s.step p selection).status = .halted (some (.menuSelection c.line)) := by
  have hresume : s.resume p c selection = .error (.menuSelection c.line) := by
    unfold resume
    by_cases hneg : selection < 0
    · rw [if_pos hneg]
    · have hlen : c.options.length ≤ selection.toNat := by omega
      rw [if_neg hneg, List.getElem?_eq_none hlen]
  simp only [step, hwait, hc, hresume]
  rfl

theorem Sound.safe (hp : p.Accepted) (h : Sound p s) : Safe p s where
  skipping := h.skipping_iff.mpr
  statement hmore := statement_of_lt (of_decide_eq_true hmore)
  opener i hi := statement_of_lt (h.blocks i hi).lt
  asked _ _ hst := ⟨_, List.getElem?_eq_getElem (h.promptIndex_lt hp hst)⟩
  selected c selection hc hsel := by
    rcases h.pending with hwait | hnone
    · exact step_menuSelection hwait hc hsel
    · rw [hnone] at hc
      cases hc
  fault _ _ hhalt := (failed_of_status hhalt).1

end State

/-- Whatever a host does with an accepted program, every state it reaches is sound, and the next step
is safe. -/
theorem sound_and_safe_of_compile {source : String} {p : Program}
    (h : Program.compile source = .ok p) (dice : Dice) (calls : List HostCall) :
    (HostCall.run p dice calls).Sound p ∧ (HostCall.run p dice calls).Safe p := by
  have hp := accepted_of_compile h
  have hsound : State.Sound p (HostCall.run p dice calls) :=
    HostCall.run_induction dice calls (State.sound_initial p dice) fun s call hs =>
      State.sound_apply hp hs call
  exact ⟨hsound, hsound.safe hp⟩

def interview : Program := ⟨[⟨1, .prompt ["X", "Y"]⟩, ⟨2, .endMark⟩], []⟩

theorem compile_interview : Program.compile "Prompt X,Y\nEnd" = .ok interview := by
  cbv

/-- A Prompt of two variables that has asked for the first of them. -/
theorem sound_and_safe_interview :
    Program.compile "Prompt X,Y\nEnd" = .ok interview ∧
      (HostCall.run interview ⟨fun _ => 0, 0⟩ [.step 0, .key 3]).promptIndex = 1 ∧
      (HostCall.run interview ⟨fun _ => 0, 0⟩ [.step 0, .key 3]).Sound interview ∧
      (HostCall.run interview ⟨fun _ => 0, 0⟩ [.step 0, .key 3]).Safe interview := by
  exact ⟨compile_interview, rfl, sound_and_safe_of_compile compile_interview _ _⟩

end PocketBasic
