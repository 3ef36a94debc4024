import PocketBasic.Proofs.Machine.Pending
import PocketBasic.Proofs.Machine.Sound

/-!
# Running a statement keeps a state sound

A statement is run only where nothing is skipped and no Prompt or menu is under way, except that a Prompt
may go on. From there it moves, opens a block, closes one, or asks, and each of these leaves a sound
state.
-/

namespace PocketBasic

namespace State

/-- A sound state at a statement that is about to be run, other than a Prompt that goes on. -/
structure Ready (p : Program) (s : State) : Prop where
  sound : Sound p s
  pc : s.pc < p.length
  skip : s.skip = none
  choice : s.choice = none
  prompt : s.promptIndex = 0

variable {p : Program} {s s' : State} {st : Statement} {o : Outcome}

theorem Ready.after_moving (h : Ready p s) (hpc : s'.pc ≤ p.length + 1)
    (hblocks : ∀ i ∈ s'.blocks, i ∈ s.blocks) (hframe : s'.skip = s.skip ∧ s'.choice = s.choice ∧
      s'.promptIndex = s.promptIndex) : Sound p s' := by
  obtain ⟨hs, hc, hi⟩ := hframe
  refine sound_of_settled hpc (fun i hi => h.sound.blocks i (hblocks i hi)) ?_ (hc.trans h.choice)
    (hi.trans h.prompt)
  intro height hheight
  rw [hs, h.skip] at hheight
  cases hheight

theorem Ready.after_opening (h : Ready p s) {i : Nat} {rest : List Nat} {b : Bool}
    (hopen : p.Opens i) (hrest : ∀ j ∈ rest, j ∈ s.blocks) (hpc : s'.pc ≤ s.pc + 2)
    (hblocks : s'.blocks = i :: rest) (hframe : s'.skip = s.skip ∧ s'.choice = s.choice ∧
      s'.promptIndex = s.promptIndex) : Sound p (s'.startSkipUnless b) := by
  obtain ⟨hs, hc, hi⟩ := hframe
  have hlt := h.pc
  have hpc' : s'.pc ≤ p.length + 1 := by omega
  have hopens : ∀ j ∈ s'.blocks, p.Opens j := by
    intro j hj
    rw [hblocks] at hj
    rcases List.mem_cons.mp hj with rfl | hj
    · exact hopen
    · exact h.sound.blocks j (hrest j hj)
  cases b with
  | true =>
    refine sound_of_settled hpc' hopens ?_ (hc.trans h.choice) (hi.trans h.prompt)
    intro height hheight
    have hnone : s'.skip = none := hs.trans h.skip
    rw [startSkipUnless, if_pos rfl, hnone] at hheight
    cases hheight
  | false =>
    refine sound_of_settled hpc' hopens ?_ (hc.trans h.choice) (hi.trans h.prompt)
    intro height hheight
    have htop : some s'.blocks.length = some height := hheight
    cases htop
    have hpos : 1 ≤ s'.blocks.length := by
      rw [hblocks]
      exact Nat.succ_pos _
    exact ⟨hpos, Nat.le_refl _⟩

theorem sound_runFor (h : Ready p s) {line : Nat} {var : String} {start stop step : Expr}
    (hst : p.statements[s.pc]? = some ⟨line, .forLoop var start stop step⟩) :
    Sound p (s.runFor var start stop step) := by
  obtain ⟨m, started, b, hrun⟩ := runFor_eq s var start stop step
  rw [hrun]
  exact h.after_opening (.forLoop hst) (fun j hj => hj) (Nat.le_succ (s.pc + 1)) rfl
    ⟨rfl, rfl, rfl⟩

theorem sound_runIf (h : Ready p s) {line : Nat} {cond : Expr}
    (hst : p.statements[s.pc]? = some ⟨line, .ifTest cond⟩) : Sound p (s.runIf p cond) := by
  simp only [runIf, eval]
  split
  · next line' hthen =>
    exact h.after_opening (.ifTest hst hthen) (fun j hj => hj) (Nat.le_refl _) rfl
      ⟨rfl, rfl, rfl⟩
  · have hlt := h.pc
    have hle (b : Bool) : (if b then s.pc + 1 else s.pc + 2) ≤ p.length + 1 := by
      split <;> omega
    exact h.after_moving (hle _) (fun i hi => hi) ⟨rfl, rfl, rfl⟩

theorem sound_runElse (h : Ready p s) {line : Nat}
    (hst : p.statements[s.pc]? = some ⟨line, .elseMark⟩) : Sound p s.runElse := by
  have htail : ∀ j ∈ s.blocks.tail, j ∈ s.blocks := fun j hj => List.mem_of_mem_tail hj
  unfold runElse
  rw [next_startSkipUnless]
  exact h.after_opening (.elseMark hst) htail (Nat.le_succ (s.pc + 1)) rfl ⟨rfl, rfl, rfl⟩

theorem sound_runEnd (h : Ready p s) {line : Nat} (hend : s.runEnd p line = .ok s') :
    Sound p s' := by
  have hpc : s.pc + 1 ≤ p.length + 1 := Nat.succ_le_succ (Nat.le_of_lt h.pc)
  unfold runEnd at hend
  split at hend
  · cases hend
  · next i rest hblocks =>
    have hrest : ∀ j ∈ rest, j ∈ s.blocks := by
      intro j hj
      rw [hblocks]
      exact List.mem_cons_of_mem i hj
    have hi : i ≤ p.length + 1 := by
      have hopen : p.Opens i := h.sound.blocks i (hblocks ▸ List.mem_cons_self)
      exact Nat.le_succ_of_le (Nat.le_of_lt hopen.lt)
    simp only at hend
    split at hend
    · cases hend
      split
      · exact h.after_moving hpc hrest ⟨rfl, rfl, rfl⟩
      · exact h.after_moving hi hrest ⟨rfl, rfl, rfl⟩
    · cases hend
      exact h.after_moving hi hrest ⟨rfl, rfl, rfl⟩
    · split at hend
      · cases hend
        exact h.after_moving hi hrest ⟨rfl, rfl, rfl⟩
      · cases hend
        exact h.after_moving hpc hrest ⟨rfl, rfl, rfl⟩
    · cases hend
      exact h.after_moving hpc hrest ⟨rfl, rfl, rfl⟩

theorem sound_runPrompt (h : Sound p s) (hskip : s.skip = none) (hchoice : s.choice = none)
    {line : Nat} {vars : List String} (hst : p.statements[s.pc]? = some ⟨line, .prompt vars⟩) :
    Sound p (s.runPrompt vars).state := by
  have hpc : s.pc + 1 ≤ p.length + 1 := Nat.succ_le_succ (Nat.le_of_lt (lt_of_statement hst))
  unfold runPrompt
  split
  · exact sound_of_settled hpc h.blocks h.skip hchoice rfl
  · next name hname =>
    have hlt := (List.getElem?_eq_some_iff.mp hname).1
    simp only
    split
    · exact sound_of_settled hpc h.blocks h.skip hchoice rfl
    · next hne =>
      exact {
        pc := h.pc
        blocks := h.blocks
        skip := h.skip
        pending := .inr hchoice
        choice := h.choice
        prompt := fun _ => ⟨line, vars, hst, Nat.lt_of_le_of_ne hlt hne⟩
        asking := fun _ => hskip }

theorem sound_menu (h : Sound p s) (hwait : s.awaiting = none) {line : Nat} {title : Expr}
    {options : List MenuOption} {m : Memory}
    (hst : p.statements[s.pc]? = some ⟨line, .menu title options⟩) :
    Sound p { s with memory := m, choice := some ⟨line, options⟩ } where
  pc := h.pc
  blocks := h.blocks
  skip := h.skip
  pending := .inl hwait
  choice c hc := by
    cases hc
    exact ⟨title, hst⟩
  prompt := h.prompt
  asking := h.asking

theorem sound_run (hp : p.Accepted) (h : Sound p s) (hwait : s.awaiting = none)
    (hchoice : s.choice = none) (hst : p.statements[s.pc]? = some st) (hrunning : s.skipping = false)
    (hrun : s.run p st.line st.command = .ok o) : Sound p o.state := by
  have hskip : s.skip = none := by
    cases hs : s.skip with
    | none => rfl
    | some height =>
      have hskipping := h.skipping_iff.mpr (by simp [hs])
      rw [hrunning] at hskipping
      cases hskipping
  have hlt := lt_of_statement hst
  have hpc : s.pc + 1 ≤ p.length + 1 := Nat.succ_le_succ (Nat.le_of_lt hlt)
  obtain ⟨line, command⟩ := st
  have hready (hnot : ∀ vars, command ≠ .prompt vars) : Ready p s :=
    ⟨h, hlt, hskip, hchoice, h.promptIndex_eq_zero hst hnot⟩
  have hnext (hr : Ready p s) {m : Memory} : Sound p { s with memory := m, pc := s.pc + 1 } :=
    hr.after_moving hpc (fun i hi => hi) ⟨rfl, rfl, rfl⟩
  have hopen (hr : Ready p s) {m : Memory} (b : Bool) (hopens : p.Opens s.pc) :
      Sound p (({ s.push s.pc with memory := m } : State).next.startSkipUnless b) :=
    hr.after_opening hopens (fun j hj => hj) (Nat.le_succ (s.pc + 1)) rfl ⟨rfl, rfl, rfl⟩
  cases command with
  | prompt vars =>
    cases hrun
    exact sound_runPrompt h hskip hchoice hst
  | menu title options =>
    cases hrun
    exact sound_menu h hwait hst
  | goto name =>
    obtain ⟨s₁, hj, rfl⟩ := map_proceed_eq_ok hrun
    obtain ⟨i, hi, rfl⟩ := jump_eq_ok hj
    have hle : i ≤ p.length + 1 := Nat.le_succ_of_le (Nat.le_of_lt (hp.label name i hi))
    exact (hready (by simp)).after_moving hle (fun i hi => hi) ⟨rfl, rfl, rfl⟩
  | endMark =>
    obtain ⟨s₁, hend, rfl⟩ := map_proceed_eq_ok hrun
    exact sound_runEnd (hready (by simp)) hend
  | forLoop var start stop step =>
    cases hrun
    exact sound_runFor (hready (by simp)) hst
  | ifTest cond =>
    cases hrun
    exact sound_runIf (hready (by simp)) hst
  | elseMark =>
    cases hrun
    exact sound_runElse (hready (by simp)) hst
  | whileLoop cond =>
    cases hrun
    rw [next_startSkipUnless]
    exact hopen (hready (by simp)) _ (.whileLoop hst)
  | repeatLoop cond =>
    cases hrun
    exact hopen (hready (by simp)) true (.repeatLoop hst)
  | thenMark =>
    cases hrun
    exact hopen (hready (by simp)) true (.thenMark hst)
  | pause value =>
    cases value <;> cases hrun <;> exact hnext (hready (by simp))
  | input text var =>
    have hr : Ready p s := hready (by simp)
    cases text <;> cases hrun <;>
      exact hr.after_moving hpc (fun i hi => hi) ⟨rfl, rfl, rfl⟩
  | program name => cases hrun
  | _ =>
    cases hrun
    exact hnext (hready (by simp))

end State

end PocketBasic
