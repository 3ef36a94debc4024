import PocketBasic.Proofs.Machine.Stepped
import PocketBasic.Proofs.Program.Reading

/-!
# Sound states of the machine

`Sound` ties the block stack, the skip height, the pending question and the pending menu to the
statements of the program. It holds at the start, and it is kept by an answer, by a fault and by
passing over any statement.
-/

namespace PocketBasic

/-- The positions that can stand on the block stack. An If opens a block only in front of a Then. -/
inductive Program.Opens (p : Program) (i : Nat) : Prop
  | whileLoop {line : Nat} {cond : Expr} (h : p.statements[i]? = some ⟨line, .whileLoop cond⟩)
  | repeatLoop {line : Nat} {cond : Expr} (h : p.statements[i]? = some ⟨line, .repeatLoop cond⟩)
  | forLoop {line : Nat} {var : String} {start stop step : Expr}
      (h : p.statements[i]? = some ⟨line, .forLoop var start stop step⟩)
  | thenMark {line : Nat} (h : p.statements[i]? = some ⟨line, .thenMark⟩)
  | elseMark {line : Nat} (h : p.statements[i]? = some ⟨line, .elseMark⟩)
  | ifTest {line line' : Nat} {cond : Expr} (h : p.statements[i]? = some ⟨line, .ifTest cond⟩)
      (hthen : p.statements[i + 1]? = some ⟨line', .thenMark⟩)

theorem lt_of_statement {p : Program} {i : Nat} {st : Statement} (h : p.statements[i]? = some st) :
    i < p.length :=
  (List.getElem?_eq_some_iff.mp h).1

theorem Program.Opens.lt {p : Program} {i : Nat} (h : p.Opens i) : i < p.length := by
  cases h with
  | whileLoop h => exact lt_of_statement h
  | repeatLoop h => exact lt_of_statement h
  | forLoop h => exact lt_of_statement h
  | thenMark h => exact lt_of_statement h
  | elseMark h => exact lt_of_statement h
  | ifTest h _ => exact lt_of_statement h

namespace State

structure Sound (p : Program) (s : State) : Prop where
  pc : s.pc ≤ p.length + 1
  blocks : ∀ i ∈ s.blocks, p.Opens i
  skip : ∀ height, s.skip = some height → 1 ≤ height ∧ height ≤ s.blocks.length
  pending : s.awaiting = none ∨ s.choice = none
  choice : ∀ c, s.choice = some c →
    ∃ title, p.statements[s.pc]? = some ⟨c.line, .menu title c.options⟩
  prompt : 0 < s.promptIndex → ∃ line vars,
    p.statements[s.pc]? = some ⟨line, .prompt vars⟩ ∧ s.promptIndex < vars.length
  /-- A Prompt that has begun to ask is not passed over. -/
  asking : 0 < s.promptIndex → s.skip = none

variable {p : Program} {s s' : State} {st : Statement} {o : Outcome}

theorem sound_initial (p : Program) (dice : Dice) : Sound p (.initial dice) where
  pc := Nat.zero_le _
  blocks i hi := by cases hi
  skip height h := by cases h
  pending := .inl rfl
  choice c h := by cases h
  prompt h := absurd h (Nat.lt_irrefl 0)
  asking _ := rfl

theorem Sound.congr (h : Sound p s) (hpc : s'.pc = s.pc) (hblocks : s'.blocks = s.blocks)
    (hskip : s'.skip = s.skip) (hwait : s'.awaiting = none ∨ s'.awaiting = s.awaiting)
    (hchoice : s'.choice = s.choice) (hprompt : s'.promptIndex = s.promptIndex) : Sound p s' where
  pc := hpc ▸ h.pc
  blocks := hblocks ▸ h.blocks
  skip := by
    rw [hskip, hblocks]
    exact h.skip
  pending := by
    rw [hchoice]
    rcases hwait with hwait | hwait
    · exact .inl hwait
    · rw [hwait]
      exact h.pending
  choice := by
    rw [hchoice, hpc]
    exact h.choice
  prompt := by
    rw [hprompt, hpc]
    exact h.prompt
  asking := by
    rw [hprompt, hskip]
    exact h.asking

/-- A state with no menu and no Prompt under way is sound if its stack and skip height are. -/
theorem sound_of_settled (hpc : s'.pc ≤ p.length + 1) (hblocks : ∀ i ∈ s'.blocks, p.Opens i)
    (hskip : ∀ height, s'.skip = some height → 1 ≤ height ∧ height ≤ s'.blocks.length)
    (hchoice : s'.choice = none) (hprompt : s'.promptIndex = 0) : Sound p s' where
  pc := hpc
  blocks := hblocks
  skip := hskip
  pending := .inr hchoice
  choice c h := by
    rw [hchoice] at h
    cases h
  prompt h := absurd h (hprompt ▸ Nat.lt_irrefl 0)
  asking h := absurd h (hprompt ▸ Nat.lt_irrefl 0)

theorem Sound.skipping_iff (h : Sound p s) : s.skipping = true ↔ s.skip ≠ none := by
  unfold skipping
  cases hs : s.skip with
  | none => simp
  | some height => simp [(h.skip height hs).2]

theorem Sound.promptIndex_eq_zero (h : Sound p s) (hst : p.statements[s.pc]? = some st)
    (hnot : ∀ vars, st.command ≠ .prompt vars) : s.promptIndex = 0 := by
  rcases Nat.eq_zero_or_pos s.promptIndex with hzero | hpos
  · exact hzero
  · obtain ⟨line, vars, hp, -⟩ := h.prompt hpos
    rw [hst] at hp
    cases hp
    exact absurd rfl (hnot vars)

theorem Sound.promptIndex_lt (hp : p.Accepted) (h : Sound p s) {line : Nat} {vars : List String}
    (hst : p.statements[s.pc]? = some ⟨line, .prompt vars⟩) : s.promptIndex < vars.length := by
  cases hi : s.promptIndex with
  | zero => exact List.length_pos_iff.mpr (hp.prompt s.pc line vars hst)
  | succ k =>
    obtain ⟨line', vars', hst', hlt⟩ := h.prompt (by omega)
    rw [hst] at hst'
    cases hst'
    omega

theorem sound_setInput (h : Sound p s) (line : String) : Sound p (s.setInput line) := by
  unfold setInput
  split
  · exact h.congr rfl rfl rfl (.inl rfl) rfl rfl
  · exact h

theorem sound_halt (h : Sound p s) {selection : Int} {fault : Fault}
    (hf : FailsWith p s selection fault) : Sound p (s.halt p fault).state := by
  have hprompt : s.promptIndex = 0 := by
    cases hf with
    | goto hst _ => exact h.promptIndex_eq_zero hst (by simp)
    | option hc _ _ _ =>
      obtain ⟨title, hst⟩ := h.choice _ hc
      exact h.promptIndex_eq_zero hst (by simp)
    | selection hc _ =>
      obtain ⟨title, hst⟩ := h.choice _ hc
      exact h.promptIndex_eq_zero hst (by simp)
    | unbalanced hst _ => exact h.promptIndex_eq_zero hst (by simp)
    | program hst => exact h.promptIndex_eq_zero hst (by simp)
  exact sound_of_settled (Nat.le_succ _) h.blocks h.skip rfl hprompt

theorem sound_pass (h : Sound p s) (hc : s.choice = none) (hst : p.statements[s.pc]? = some st)
    (hskip : s.skipping = true) : Sound p (s.pass p st.command) := by
  have hpc : s.pc + 1 ≤ p.length + 1 := Nat.succ_le_succ (Nat.le_of_lt (lt_of_statement hst))
  obtain ⟨height, hheight⟩ := Option.ne_none_iff_exists'.mp (h.skipping_iff.mp hskip)
  have hbound := h.skip height hheight
  have hprompt : s.promptIndex = 0 := by
    rcases Nat.eq_zero_or_pos s.promptIndex with hzero | hpos
    · exact hzero
    · rw [h.asking hpos] at hheight
      cases hheight
  have hpush (hopen : p.Opens s.pc) : Sound p (s.push s.pc).next := by
    refine sound_of_settled hpc ?_ ?_ hc hprompt
    · intro i hi
      rcases List.mem_cons.mp hi with rfl | hi
      · exact hopen
      · exact h.blocks i hi
    · intro height' hs
      have := h.skip height' hs
      exact ⟨this.1, Nat.le_trans this.2 (Nat.le_succ _)⟩
  obtain ⟨line, command⟩ := st
  cases command with
  | whileLoop cond => exact hpush (.whileLoop hst)
  | repeatLoop cond => exact hpush (.repeatLoop hst)
  | forLoop var start stop step => exact hpush (.forLoop hst)
  | thenMark => exact hpush (.thenMark hst)
  | elseMark =>
    refine sound_of_settled hpc ?_ ?_ hc hprompt
    · intro i hi
      rcases List.mem_cons.mp hi with rfl | hi
      · exact .elseMark hst
      · exact h.blocks i (List.mem_of_mem_tail hi)
    · intro height' hs
      have hs' : s.skip = some height' := by
        simp only [pass] at hs
        split at hs
        · cases hs
        · exact hs
      have := h.skip height' hs'
      simp only [pass, List.length_cons, List.length_tail]
      omega
  | endMark =>
    refine sound_of_settled hpc (fun i hi => h.blocks i (List.mem_of_mem_tail hi)) ?_ hc hprompt
    intro height' hs
    obtain ⟨hs', hle⟩ := Option.filter_eq_some_iff.mp hs
    exact ⟨(h.skip height' hs').1, of_decide_eq_true hle⟩
  | _ => exact sound_of_settled hpc h.blocks h.skip hc hprompt

end State

end PocketBasic
