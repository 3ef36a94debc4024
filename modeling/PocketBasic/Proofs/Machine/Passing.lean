import PocketBasic.Proofs.Machine.Balance
import PocketBasic.Proofs.Machine.Pending

/-!
# What skipping leaves as it is

In every reachable state the skip height lies within the block stack, and nothing is pending while it is
set. So the steps from such a state pass over statements, and over balanced ones without any effect. The
skip ends at an Else or an End that finds the stack as high as the skip height.
-/

namespace PocketBasic

namespace State

variable {p : Program} {s s' : State} {o : Outcome} {c : Command} {height : Nat}

/-- While a skip height is set, it lies within the stack and nothing is pending. -/
def SkipsQuietly (s : State) : Prop :=
  ∀ height, s.skip = some height →
    0 < height ∧ height ≤ s.blocks.length ∧ s.awaiting = none ∧ s.choice = none

theorem skipsQuietly_of_none (h : s.skip = none) : s.SkipsQuietly := by
  intro height hheight
  rw [h] at hheight
  cases hheight

theorem SkipsQuietly.skipping (h : s.SkipsQuietly) (hskip : s.skip = some height) :
    s.skipping = true := by
  obtain ⟨-, hheight, -, -⟩ := h height hskip
  simp only [State.skipping, hskip, decide_eq_true hheight]

theorem SkipsQuietly.skip_eq_none (h : s.SkipsQuietly) (hrunning : s.skipping = false) :
    s.skip = none := by
  cases hskip : s.skip with
  | none => rfl
  | some height =>
    rw [h.skipping hskip] at hrunning
    cases hrunning

theorem skipsQuietly_startSkipUnless {i : Nat} {rest : List Nat} (hskip : s.skip = none)
    (hwait : s.awaiting = none) (hchoice : s.choice = none) (hblocks : s'.blocks = i :: rest)
    (hframe : s'.skip = s.skip ∧ s'.awaiting = s.awaiting ∧ s'.choice = s.choice) (b : Bool) :
    (s'.startSkipUnless b).SkipsQuietly := by
  obtain ⟨hskip', hwait', hchoice'⟩ := hframe
  cases b with
  | true => exact skipsQuietly_of_none (hskip'.trans hskip)
  | false =>
    intro height hheight
    cases hheight
    refine ⟨?_, Nat.le_refl _, hwait'.trans hwait, hchoice'.trans hchoice⟩
    rw [hblocks]
    exact Nat.succ_pos _

theorem SkipsQuietly.push (h : s.SkipsQuietly) (i : Nat) : (s.push i).SkipsQuietly := by
  intro height hheight
  obtain ⟨hpos, hle, hpending⟩ := h height hheight
  exact ⟨hpos, Nat.le_succ_of_le hle, hpending⟩

theorem SkipsQuietly.passElse (h : s.SkipsQuietly) : (s.pass p .elseMark).SkipsQuietly := by
  intro height hheight
  have hskip : s.skip = some height := by
    simp only [State.pass] at hheight
    split at hheight
    · cases hheight
    · exact hheight
  obtain ⟨hpos, hle, hpending⟩ := h height hskip
  refine ⟨hpos, ?_, hpending⟩
  simp only [State.pass, List.length_cons, List.length_tail]
  omega

theorem SkipsQuietly.passEnd (h : s.SkipsQuietly) : (s.pass p .endMark).SkipsQuietly := by
  intro height hheight
  obtain ⟨hskip, hle⟩ := Option.filter_eq_some_iff.mp hheight
  obtain ⟨hpos, -, hpending⟩ := h height hskip
  exact ⟨hpos, of_decide_eq_true hle, hpending⟩

theorem SkipsQuietly.pass (h : s.SkipsQuietly) (c : Command) : (s.pass p c).SkipsQuietly := by
  cases c with
  | whileLoop cond | repeatLoop cond | thenMark | forLoop var start stop step => exact h.push s.pc
  | elseMark => exact h.passElse
  | endMark => exact h.passEnd
  | _ => exact h

theorem skip_runEnd {line : Nat} (h : s.runEnd p line = .ok s') : s'.skip = s.skip := by
  unfold runEnd at h
  split at h
  · cases h
  · simp only at h
    split at h
    · cases h
      split <;> rfl
    · cases h
      rfl
    · split at h <;> cases h <;> rfl
    · cases h
      rfl

theorem skip_runPrompt (s : State) (vars : List String) : (s.runPrompt vars).state.skip = s.skip := by
  unfold runPrompt
  split
  · rfl
  · simp only
    split <;> rfl

/-- A statement that is run sets a skip height only together with the block that it opens. -/
theorem skipsQuietly_run {line : Nat} (hskip : s.skip = none) (hwait : s.awaiting = none)
    (hchoice : s.choice = none) (h : s.run p line c = .ok o) : o.state.SkipsQuietly := by
  have hopened {s' : State} {rest : List Nat} (b : Bool) (hblocks : s'.blocks = s.pc :: rest)
      (hframe : s'.skip = s.skip ∧ s'.awaiting = s.awaiting ∧ s'.choice = s.choice) :
      (s'.startSkipUnless b).SkipsQuietly :=
    skipsQuietly_startSkipUnless hskip hwait hchoice hblocks hframe b
  cases c with
  | whileLoop cond =>
    cases h
    rw [next_startSkipUnless]
    exact hopened _ rfl ⟨rfl, rfl, rfl⟩
  | forLoop var start stop step =>
    cases h
    obtain ⟨m, started, b, hrun⟩ := runFor_eq s var start stop step
    rw [hrun]
    exact hopened b rfl ⟨rfl, rfl, rfl⟩
  | ifTest cond =>
    cases h
    simp only [proceed, runIf, eval]
    split
    · exact hopened _ rfl ⟨rfl, rfl, rfl⟩
    · exact skipsQuietly_of_none hskip
  | elseMark =>
    cases h
    simp only [proceed, runElse, next_startSkipUnless]
    exact hopened _ rfl ⟨rfl, rfl, rfl⟩
  | goto name =>
    obtain ⟨s₁, hjump, rfl⟩ := map_proceed_eq_ok h
    obtain ⟨i, -, rfl⟩ := jump_eq_ok hjump
    exact skipsQuietly_of_none hskip
  | endMark =>
    obtain ⟨s₁, hend, rfl⟩ := map_proceed_eq_ok h
    exact skipsQuietly_of_none ((skip_runEnd hend).trans hskip)
  | prompt vars =>
    cases h
    exact skipsQuietly_of_none ((skip_runPrompt s vars).trans hskip)
  | pause value => cases value <;> cases h <;> exact skipsQuietly_of_none hskip
  | input question var => cases question <;> cases h <;> exact skipsQuietly_of_none hskip
  | program name => cases h
  | _ =>
    cases h
    exact skipsQuietly_of_none hskip

theorem SkipsQuietly.step (h : s.SkipsQuietly) (p : Program) (selection : Int) :
    (s.step p selection).state.SkipsQuietly := by
  have hstep := stepped_step p s selection
  generalize s.step p selection = o at hstep ⊢
  cases hstep with
  | waits _ => exact h
  | chooses _ hc _ _ _ =>
    intro height hheight
    obtain ⟨-, -, -, hchoice⟩ := h height hheight
    rw [hc] at hchoice
    cases hchoice
  | ends _ _ _ => exact h
  | passes _ _ _ _ => exact h.pass _
  | runs hwait hchoice _ hrunning hrun =>
    exact skipsQuietly_run (h.skip_eq_none hrunning) hwait hchoice hrun
  | fails _ _ =>
    intro height hheight
    obtain ⟨hpos, hle, -⟩ := h height hheight
    exact ⟨hpos, hle, rfl, rfl⟩

theorem SkipsQuietly.setInput (h : s.SkipsQuietly) (line : String) :
    (s.setInput line).SkipsQuietly := by
  unfold State.setInput
  split
  · next hwait =>
    intro height hheight
    obtain ⟨-, -, hnone, -⟩ := h height hheight
    rw [hwait] at hnone
    cases hnone
  · exact h

/-- The skip ends at an End that finds the stack as high as the skip height. Only the marks of the block on
top can be cleared. -/
theorem step_end_at_height {line : Nat} (h : s.SkipsQuietly) (hskip : s.skip = some height)
    (hheight : s.blocks.length = height) (hst : p.statements[s.pc]? = some ⟨line, .endMark⟩)
    (selection : Int) :
    ∃ i started taken, s.blocks.head? = some i ∧ s.started.ClearedIn started i (i + 1) ∧
      s.taken.ClearedIn taken i (i + 1) ∧
      s.step p selection = ({ s with
        pc := s.pc + 1, blocks := s.blocks.tail, skip := none, started := started,
        taken := taken } : State).proceed := by
  obtain ⟨hpos, -, hwait, hchoice⟩ := h height hskip
  have hstep := step_of_skipping hwait hchoice (h.skipping hskip) hst selection
  cases hblocks : s.blocks with
  | nil =>
    rw [hblocks] at hheight
    exact absurd hheight (Nat.ne_of_lt hpos)
  | cons i rest =>
    have hlow : ¬ height ≤ rest.length := by
      rw [← hheight, hblocks, List.length_cons]
      omega
    have hended : (some height).filter (· ≤ rest.length) = none :=
      Option.filter_some_neg (decide_eq_false hlow)
    have hclear (m : Marks) : m.ClearedIn (m.clear i) i (i + 1) :=
      (Marks.ClearedIn.refl m i (i + 1)).clear (Nat.le_refl i) (Nat.lt_succ_self i)
    simp only [State.pass, hblocks, List.tail_cons, hskip, hended] at hstep
    refine ⟨i, _, _, rfl, ?_, hclear s.taken, hstep⟩
    split
    · exact hclear s.started
    · exact .refl _ _ _

theorem step_else_at_height {line : Nat} (h : s.SkipsQuietly) (hskip : s.skip = some height)
    (hheight : s.blocks.length = height) (hst : p.statements[s.pc]? = some ⟨line, .elseMark⟩)
    (selection : Int) :
    s.step p selection = ({ s with
      pc := s.pc + 1, blocks := s.pc :: s.blocks.tail, skip := none } : State).proceed := by
  obtain ⟨-, -, hwait, hchoice⟩ := h height hskip
  rw [step_of_skipping hwait hchoice (h.skipping hskip) hst]
  simp only [State.pass, hskip, hheight, if_true]

theorem step_above_height {st : Statement} (h : s.SkipsQuietly) (hskip : s.skip = some height)
    (hheight : height < s.blocks.length) (hst : p.statements[s.pc]? = some st) (selection : Int) :
    (s.step p selection).state.skip = some height := by
  obtain ⟨-, -, hwait, hchoice⟩ := h height hskip
  rw [step_of_skipping hwait hchoice (h.skipping hskip) hst]
  cases st.command with
  | elseMark =>
    have hne : ¬ some height = some s.blocks.length := by
      rw [Option.some.injEq]
      exact Nat.ne_of_lt hheight
    simp only [proceed, State.pass, hskip, if_neg hne]
  | endMark =>
    have hle : height ≤ s.blocks.tail.length := by
      rw [List.length_tail]
      omega
    simp only [proceed, State.pass, hskip]
    exact Option.filter_some_pos (decide_eq_true hle)
  | _ => exact hskip

end State

namespace HostCall

variable {p : Program} {dice : Dice} {s : State}

theorem skipsQuietly_run (p : Program) (dice : Dice) (calls : List HostCall) :
    (run p dice calls).SkipsQuietly := by
  apply run_induction dice calls (State.skipsQuietly_of_none rfl)
  intro s call h
  cases call with
  | step selection => exact h.step p selection
  | input line => exact h.setInput line
  | key code => exact h
  | assign name v => exact h

/-- The state after the first `t` calls of a host that goes on for ever. -/
def after (p : Program) (s : State) (calls : Nat → HostCall) : Nat → State
  | 0 => s
  | t + 1 => (calls t).apply p (after p s calls t)

theorem passedTo_after {height : Nat} {cs : List Command} (hquiet : s.SkipsQuietly)
    (hskip : s.skip = some height) (hcode : Code p s.pc cs) (hcs : Balanced cs)
    (selection : Nat → Int) (k : Nat) (hk : k ≤ cs.length) :
    ∃ d, depthAfter 0 (cs.take k) = some d ∧
      s.PassedTo d k (after p s (fun t => .step (selection t)) k) ∧
      (after p s (fun t => .step (selection t)) k).memory = s.memory ∧
      ∀ j < k, ((after p s (fun t => .step (selection t)) j).step p (selection j)).status = .running ∧
        ((after p s (fun t => .step (selection t)) j).step p (selection j)).signals = [] := by
  obtain ⟨-, hheight, hwait, hchoice⟩ := hquiet height hskip
  induction k with
  | zero => exact ⟨0, rfl, State.passedTo_start s, rfl, by simp⟩
  | succ k ih =>
    obtain ⟨d, hd, hpassed, hmemory, hbefore⟩ := ih (Nat.le_of_succ_le hk)
    obtain ⟨e, s', he, hstep, hpassed', hmemory'⟩ :=
      hpassed.step hskip hheight hwait hchoice hcode hcs hk hd (selection k)
    refine ⟨e, he, ?_, ?_, fun j hj => ?_⟩
    · rw [after, apply, hstep]
      exact hpassed'
    · rw [after, apply, hstep]
      exact hmemory'.trans hmemory
    · rcases Nat.lt_succ_iff_lt_or_eq.mp hj with hlt | rfl
      · exact hbefore j hlt
      · rw [hstep]
        exact ⟨rfl, rfl⟩

/-- Skipping over balanced statements is neutral. From a reachable state with a skip height, as many steps
as there are statements show nothing and change nothing but the position and marks of positions within the
stretch, and the skip height stays all the way. Behind the stretch, an End that finds the stack as high as
the skip height takes the top off and ends the skip, and an Else replaces the top and ends the skip. Where
the stack is higher, no statement ends the skip. -/
theorem passes_balanced {calls : List HostCall} {height : Nat} {cs : List Command}
    (hs : run p dice calls = s) (hskip : s.skip = some height) (hcode : Code p s.pc cs)
    (hcs : Balanced cs) (selection : Nat → Int) :
    let stepped := after p s fun t => .step (selection t)
    let behind := stepped cs.length
    (∀ k < cs.length, ((stepped k).step p (selection k)).status = .running ∧
        ((stepped k).step p (selection k)).signals = []) ∧
      (∀ k ≤ cs.length, (stepped k).pc = s.pc + k ∧ (stepped k).skip = some height) ∧
      behind = { s with
        pc := s.pc + cs.length, started := behind.started, taken := behind.taken } ∧
      s.started.ClearedIn behind.started s.pc (s.pc + cs.length) ∧
      s.taken.ClearedIn behind.taken s.pc (s.pc + cs.length) ∧
      (s.blocks.length = height → ∀ line sel,
        (p.statements[s.pc + cs.length]? = some ⟨line, .endMark⟩ → ∃ i started taken,
          s.blocks.head? = some i ∧ behind.started.ClearedIn started i (i + 1) ∧
          behind.taken.ClearedIn taken i (i + 1) ∧
          behind.step p sel = ({ behind with
            pc := behind.pc + 1, blocks := s.blocks.tail, skip := none, started := started,
            taken := taken } : State).proceed) ∧
        (p.statements[s.pc + cs.length]? = some ⟨line, .elseMark⟩ →
          behind.step p sel = ({ behind with
            pc := behind.pc + 1, blocks := behind.pc :: s.blocks.tail,
            skip := none } : State).proceed)) ∧
      (height < s.blocks.length → ∀ st sel, p.statements[s.pc + cs.length]? = some st →
        (behind.step p sel).state.skip = some height) := by
  intro stepped behind
  have hquiet : s.SkipsQuietly := hs ▸ skipsQuietly_run p dice calls
  have hpassed := passedTo_after hquiet hskip hcode hcs selection
  obtain ⟨d, hd, hbehind, hmemory, hsteps⟩ := hpassed cs.length (Nat.le_refl _)
  rw [List.take_length] at hd
  obtain rfl : d = 0 := Option.some.inj (hd.symm.trans hcs)
  have heq : behind = { s with
      pc := s.pc + cs.length, started := behind.started, taken := behind.taken } := hbehind.eq hmemory
  have hsame : behind.blocks = s.blocks := by rw [heq]
  have hskip' : behind.skip = some height := hbehind.skip.trans hskip
  have hquiet' : behind.SkipsQuietly := by
    obtain ⟨hpos, hle, hwait, hchoice⟩ := hquiet height hskip
    intro height' hheight'
    cases hskip'.symm.trans hheight'
    exact ⟨hpos, hsame ▸ hle, hbehind.awaiting.trans hwait, hbehind.choice.trans hchoice⟩
  refine ⟨hsteps, fun k hk => ?_, heq, hbehind.started, hbehind.taken,
    fun hheight line sel => ⟨fun hend => ?_, fun helse => ?_⟩, fun hheight st sel hst => ?_⟩
  · obtain ⟨_, -, hpassed', -⟩ := hpassed k hk
    exact ⟨hpassed'.pc, hpassed'.skip.trans hskip⟩
  · rw [← hsame] at hheight ⊢
    exact State.step_end_at_height hquiet' hskip' hheight (hbehind.pc ▸ hend) sel
  · rw [← hsame] at hheight ⊢
    exact State.step_else_at_height hquiet' hskip' hheight (hbehind.pc ▸ helse) sel
  · rw [← hsame] at hheight
    exact State.step_above_height hquiet' hskip' hheight (hbehind.pc ▸ hst) sel

end HostCall

/-- A branch that is not taken, with a loop, a test and a jump in it. -/
def notTaken : Program :=
  ⟨[⟨1, .ifTest (.number 1 0)⟩, ⟨2, .thenMark⟩,
    ⟨3, .forLoop "I" (.number 3 1) (.number 3 2) (.number 3 1)⟩,
    ⟨4, .ifTest (.name 4 "I")⟩, ⟨5, .thenMark⟩, ⟨6, .goto "A"⟩, ⟨7, .elseMark⟩,
    ⟨8, .input none "I"⟩, ⟨9, .endMark⟩, ⟨10, .endMark⟩, ⟨11, .elseMark⟩, ⟨12, .clearHome⟩,
    ⟨13, .endMark⟩], []⟩

def insideNotTaken : List Command :=
  [.forLoop "I" (.number 3 1) (.number 3 2) (.number 3 1), .ifTest (.name 4 "I"), .thenMark,
    .goto "A", .elseMark, .input none "I", .endMark, .endMark]

/-- The state in which the test has failed and the branch is yet to be passed over. -/
def beforeNotTaken : State := HostCall.run notTaken ⟨fun _ => 0, 0⟩ [.step 0]

/-- The two Ends and the Else within the branch leave the skip height, and the Else behind it ends the
skip. -/
theorem passes_balanced_notTaken :
    beforeNotTaken.skip = some 1 ∧ Code notTaken beforeNotTaken.pc insideNotTaken ∧
      Balanced insideNotTaken ∧
      let behind := HostCall.after notTaken beforeNotTaken (fun _ => .step 0) insideNotTaken.length
      behind.skip = some 1 ∧ behind.blocks = [0] ∧ behind.memory = beforeNotTaken.memory ∧
        (behind.step notTaken 0).state.skip = none := by
  have hstart : HostCall.run notTaken ⟨fun _ => 0, 0⟩ [.step 0] = beforeNotTaken := rfl
  have hskip : beforeNotTaken.skip = some 1 := by decide
  have hpc : beforeNotTaken.pc = 2 := by decide
  have hblocks : beforeNotTaken.blocks = [0] := by decide
  have hcode : Code notTaken beforeNotTaken.pc insideNotTaken :=
    ⟨[.ifTest (.number 1 0), .thenMark], [.elseMark, .clearHome, .endMark], rfl, hpc.symm⟩
  have hbalanced : Balanced insideNotTaken := by decide
  obtain ⟨-, hway, hbehind, -, -, hends, -⟩ :=
    HostCall.passes_balanced hstart hskip hcode hbalanced fun _ => 0
  have hheight : beforeNotTaken.blocks.length = 1 := congrArg List.length hblocks
  have helse : notTaken.statements[beforeNotTaken.pc + insideNotTaken.length]? =
      some ⟨11, .elseMark⟩ := by
    rw [hpc]
    rfl
  refine ⟨hskip, hcode, hbalanced, (hway _ (Nat.le_refl _)).2, ?_, ?_, ?_⟩
  · rw [hbehind]
    exact hblocks
  · rw [hbehind]
  · rw [(hends hheight 11 0).2 helse]
    rfl

end PocketBasic
