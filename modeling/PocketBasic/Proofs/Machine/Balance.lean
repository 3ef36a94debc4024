import PocketBasic.Proofs.Block.Place
import PocketBasic.Proofs.Block.Play
import PocketBasic.Proofs.Machine.Stepped
import PocketBasic.Proofs.Nesting.Tree

/-!
# Passing over balanced statements

A stretch of statements is balanced if it closes the blocks that it opens and no other. `PassedTo` compares
the state from which a stretch is passed over with the state at a moment on the way. What has been opened
since then lies on top of the block stack, so the skip height cannot be reached from above.
-/

namespace PocketBasic

/-- The number of open blocks behind a statement that finds `d` of them. An Else and an End need one. -/
def Command.depthAfter (d : Nat) : Command → Option Nat
  | .whileLoop _ | .repeatLoop _ | .forLoop .. | .thenMark => some (d + 1)
  | .elseMark => if d = 0 then none else some d
  | .endMark => if d = 0 then none else some (d - 1)
  | _ => some d

def depthAfter : Nat → List Command → Option Nat
  | d, [] => some d
  | d, c :: cs => (c.depthAfter d).bind (depthAfter · cs)

/-- The statements close all blocks that they open, and no other. They can be of any kind, also jumps. -/
def Balanced (cs : List Command) : Prop := depthAfter 0 cs = some 0

instance (cs : List Command) : Decidable (Balanced cs) :=
  inferInstanceAs (Decidable (depthAfter 0 cs = some 0))

section Depth

variable {c : Command} {cs ds : List Command} {d e : Nat}

theorem depthAfter_append (d : Nat) (cs ds : List Command) :
    depthAfter d (cs ++ ds) = (depthAfter d cs).bind (depthAfter · ds) := by
  induction cs generalizing d with
  | nil => rfl
  | cons c cs ih =>
    rw [List.cons_append, depthAfter, depthAfter]
    cases c.depthAfter d with
    | none => rfl
    | some e => exact ih e

theorem depthAfter_append_of_eq (h : depthAfter d cs = some e) (ds : List Command) :
    depthAfter d (cs ++ ds) = depthAfter e ds := by
  rw [depthAfter_append, h, Option.bind_some]

theorem exists_depthAfter_take (h : depthAfter d cs = some e) (k : Nat) :
    ∃ d', depthAfter d (cs.take k) = some d' ∧ depthAfter d' (cs.drop k) = some e := by
  rw [← List.take_append_drop k cs, depthAfter_append] at h
  exact Option.bind_eq_some_iff.mp h

theorem depthAfter_take_succ {k : Nat} {d' : Nat} (hk : cs[k]? = some c)
    (hd : depthAfter d (cs.take k) = some d') :
    depthAfter d (cs.take (k + 1)) = c.depthAfter d' := by
  rw [List.take_add_one, hk, Option.toList_some, depthAfter_append_of_eq hd, depthAfter]
  cases c.depthAfter d' <;> rfl

theorem depthAfter_of_isPlain (h : c.isPlain = true) (d : Nat) : c.depthAfter d = some d := by
  cases c <;> first | rfl | cases h

theorem depthAfter_of_isLoop (h : c.isLoop = true) (d : Nat) : c.depthAfter d = some (d + 1) := by
  cases c <;> first | rfl | cases h

theorem depthAfter_tests (tests : List Expr) (d : Nat) :
    depthAfter d (tests.map .ifTest) = some d := by
  induction tests with
  | nil => rfl
  | cons cond tests ih => exact ih

/-- A stretch in a branch has the block of the branch open, which an Else of its own needs. -/
theorem Nest.depthAfter_commands {inBranch : Bool} (t : Nest inBranch) (d : Nat)
    (hd : inBranch = true → d ≠ 0) : depthAfter d t.commands = some d := by
  induction t generalizing d with
  | empty => rfl
  | sequence first second ih₁ ih₂ => rw [commands, depthAfter_append_of_eq (ih₁ d hd), ih₂ d hd]
  | guarded tests c plain =>
    rw [commands, depthAfter_append_of_eq (depthAfter_tests tests d), depthAfter,
      depthAfter_of_isPlain plain]
    rfl
  | loop header isLoop body ih =>
    have hopen : depthAfter d ([header] ++ body.commands) = some (d + 1) := by
      rw [List.singleton_append, depthAfter, depthAfter_of_isLoop isLoop, Option.bind_some,
        ih (d + 1) fun h => absurd h Bool.false_ne_true]
    rw [commands, depthAfter_append_of_eq hopen]
    rfl
  | branch cond part ih =>
    have hopen : depthAfter d ([.ifTest cond, .thenMark] ++ part.commands) = some (d + 1) :=
      ih (d + 1) fun _ => Nat.succ_ne_zero d
    rw [commands, depthAfter_append_of_eq hopen]
    rfl
  | otherwise =>
    rw [commands, depthAfter, Command.depthAfter, if_neg (hd rfl)]
    rfl

theorem Nest.balanced (t : Nest false) : Balanced t.commands :=
  t.depthAfter_commands 0 fun h => absurd h Bool.false_ne_true

end Depth

theorem Code.statement_at {p : Program} {a k : Nat} {c : Command} {cs : List Command}
    (h : Code p a cs) (hk : cs[k]? = some c) : ∃ line, p.statements[a + k]? = some ⟨line, c⟩ := by
  obtain ⟨hlt, rfl⟩ := List.getElem?_eq_some_iff.mp hk
  have hsplit : cs.take k ++ cs[k] :: cs.drop (k + 1) = cs := by
    rw [← List.drop_eq_getElem_cons hlt, List.take_append_drop]
  rw [← hsplit] at h
  have hstatement := h.right.statement
  rwa [List.length_take_of_le (Nat.le_of_lt hlt)] at hstatement

/-- The second marks are the first but for some from `lo` on and before `hi`. -/
structure Marks.ClearedIn (m m' : Marks) (lo hi : Nat) : Prop where
  kept : ∀ i, m'.has i = true → m.has i = true
  outside : ∀ i, i < lo ∨ hi ≤ i → m'.has i = m.has i

namespace Marks.ClearedIn

variable {m m' : Marks} {lo hi i : Nat}

theorem refl (m : Marks) (lo hi : Nat) : m.ClearedIn m lo hi := ⟨fun _ h => h, fun _ _ => rfl⟩

theorem succ (h : m.ClearedIn m' lo hi) : m.ClearedIn m' lo (hi + 1) where
  kept := h.kept
  outside i hi := h.outside i (by omega)

theorem clear (h : m.ClearedIn m' lo hi) (hlo : lo ≤ i) (hhi : i < hi) :
    m.ClearedIn (m'.clear i) lo hi where
  kept j hj := by
    rw [has_clear, Bool.and_eq_true] at hj
    exact h.kept j hj.2
  outside j hj := by
    have hne : (j != i) = true := bne_iff_ne.mpr (by omega)
    rw [has_clear, hne, Bool.true_and]
    exact h.outside j hj

end Marks.ClearedIn

namespace State

/-- From `s`, the machine has passed over `k` statements and stands in `s'`, within `d` blocks that they have
opened. Nothing is said of the memory. -/
structure PassedTo (s : State) (d k : Nat) (s' : State) : Prop where
  pc : s'.pc = s.pc + k
  blocks : ∃ inner, s'.blocks = inner ++ s.blocks ∧ inner.length = d ∧
    ∀ i ∈ inner, s.pc ≤ i ∧ i < s.pc + k
  skip : s'.skip = s.skip
  awaiting : s'.awaiting = s.awaiting
  choice : s'.choice = s.choice
  promptIndex : s'.promptIndex = s.promptIndex
  started : s.started.ClearedIn s'.started s.pc (s.pc + k)
  taken : s.taken.ClearedIn s'.taken s.pc (s.pc + k)

variable {p : Program} {s s' : State} {c : Command} {d e k height : Nat}

theorem passedTo_start (s : State) : s.PassedTo 0 0 s where
  pc := rfl
  blocks := ⟨[], rfl, rfl, by simp⟩
  skip := rfl
  awaiting := rfl
  choice := rfl
  promptIndex := rfl
  started := .refl _ _ _
  taken := .refl _ _ _

theorem PassedTo.withMemory (h : s.PassedTo d k s') (m : Memory) :
    s.PassedTo d k { s' with memory := m } :=
  ⟨h.pc, h.blocks, h.skip, h.awaiting, h.choice, h.promptIndex, h.started, h.taken⟩

theorem PassedTo.next (h : s.PassedTo d k s') : s.PassedTo d (k + 1) s'.next where
  pc := congrArg (· + 1) h.pc
  blocks := by
    obtain ⟨inner, hblocks, hlength, hinner⟩ := h.blocks
    exact ⟨inner, hblocks, hlength, fun i hi => ⟨(hinner i hi).1, Nat.lt_succ_of_lt (hinner i hi).2⟩⟩
  skip := h.skip
  awaiting := h.awaiting
  choice := h.choice
  promptIndex := h.promptIndex
  started := h.started.succ
  taken := h.taken.succ

theorem PassedTo.push (h : s.PassedTo d k s') : s.PassedTo (d + 1) (k + 1) (s'.push s'.pc).next where
  pc := congrArg (· + 1) h.pc
  blocks := by
    obtain ⟨inner, hblocks, hlength, hinner⟩ := h.next.blocks
    refine ⟨s'.pc :: inner, congrArg (s'.pc :: ·) hblocks, congrArg (· + 1) hlength, fun i hi => ?_⟩
    rcases List.mem_cons.mp hi with rfl | hi
    · have hpc := h.pc
      omega
    · exact hinner i hi
  skip := h.skip
  awaiting := h.awaiting
  choice := h.choice
  promptIndex := h.promptIndex
  started := h.started.succ
  taken := h.taken.succ

/-- A block that was opened on the way lies on top of the stack, which is therefore higher than the one at
the start. -/
theorem PassedTo.top (h : s.PassedTo d k s') (hd : d ≠ 0) :
    ∃ i inner, s'.blocks = i :: (inner ++ s.blocks) ∧ inner.length + 1 = d ∧
      (∀ j ∈ inner, s.pc ≤ j ∧ j < s.pc + k) ∧ s.pc ≤ i ∧ i < s.pc + k := by
  obtain ⟨inner, hblocks, hlength, hinner⟩ := h.blocks
  cases inner with
  | nil => exact absurd hlength.symm hd
  | cons i inner =>
    exact ⟨i, inner, hblocks, hlength, fun j hj => hinner j (List.mem_cons_of_mem i hj),
      hinner i List.mem_cons_self⟩

theorem PassedTo.passElse (h : s.PassedTo d k s') (hskip : s.skip = some height)
    (hheight : height ≤ s.blocks.length) (hd : d ≠ 0) :
    s.PassedTo d (k + 1) (s'.pass p .elseMark) := by
  obtain ⟨i, inner, hblocks, hlength, hinner, -⟩ := h.top hd
  have hpc := h.pc
  refine ⟨congrArg (· + 1) hpc, ⟨s'.pc :: inner, ?_, hlength, fun j hj => ?_⟩, ?_, h.awaiting, h.choice,
    h.promptIndex, h.started.succ, h.taken.succ⟩
  · simp only [pass, hblocks, List.tail_cons, List.cons_append]
  · rcases List.mem_cons.mp hj with rfl | hj
    · omega
    · have hj' := hinner j hj
      omega
  · have hhigher : ¬ some height = some s'.blocks.length := by
      rw [hblocks, List.length_cons, List.length_append, Option.some.injEq]
      omega
    simp only [pass]
    rw [h.skip, hskip, if_neg hhigher]

theorem PassedTo.passEnd (h : s.PassedTo d k s') (hskip : s.skip = some height)
    (hheight : height ≤ s.blocks.length) (hd : d ≠ 0) :
    s.PassedTo (d - 1) (k + 1) (s'.pass p .endMark) := by
  obtain ⟨i, inner, hblocks, hlength, hinner, hlo, hhi⟩ := h.top hd
  have hstarted := (h.started.clear hlo hhi).succ
  refine ⟨congrArg (· + 1) h.pc, ⟨inner, ?_, by omega, fun j hj => ?_⟩, ?_, h.awaiting, h.choice,
    h.promptIndex, ?_, ?_⟩
  · simp only [pass, hblocks, List.tail_cons]
  · have hj' := hinner j hj
    omega
  · have hhigh : height ≤ (inner ++ s.blocks).length := by
      rw [List.length_append]
      omega
    simp only [pass, hblocks, List.tail_cons, h.skip, hskip]
    exact Option.filter_some_pos (decide_eq_true hhigh)
  · simp only [pass, hblocks]
    split
    · exact hstarted
    · exact h.started.succ
  · simp only [pass, hblocks]
    exact (h.taken.clear hlo hhi).succ

theorem PassedTo.pass (h : s.PassedTo d k s') (hskip : s.skip = some height)
    (hheight : height ≤ s.blocks.length) (hc : c.depthAfter d = some e) :
    s.PassedTo e (k + 1) (s'.pass p c) := by
  cases c with
  | whileLoop cond | repeatLoop cond | thenMark | forLoop var start stop step =>
    cases hc
    exact h.push
  | elseMark =>
    obtain ⟨hd, hde⟩ := Option.ite_none_left_eq_some.mp hc
    cases hde
    exact h.passElse hskip hheight hd
  | endMark =>
    obtain ⟨hd, hde⟩ := Option.ite_none_left_eq_some.mp hc
    cases hde
    exact h.passEnd hskip hheight hd
  | _ =>
    cases hc
    exact h.next

theorem PassedTo.skipping (h : s.PassedTo d k s') (hskip : s.skip = some height)
    (hheight : height ≤ s.blocks.length) : s'.skipping = true := by
  obtain ⟨inner, hblocks, -, -⟩ := h.blocks
  have hhigh : height ≤ s'.blocks.length := by
    rw [hblocks, List.length_append]
    omega
  simp only [State.skipping, h.skip, hskip, decide_eq_true hhigh]

theorem memory_pass (s : State) (p : Program) (c : Command) : (s.pass p c).memory = s.memory := by
  cases c <;> rfl

theorem PassedTo.step {cs : List Command} (h : s.PassedTo d k s') (hskip : s.skip = some height)
    (hheight : height ≤ s.blocks.length) (hwait : s.awaiting = none) (hchoice : s.choice = none)
    (hcode : Code p s.pc cs) (hcs : Balanced cs) (hk : k < cs.length)
    (hd : depthAfter 0 (cs.take k) = some d) (selection : Int) :
    ∃ e s'', depthAfter 0 (cs.take (k + 1)) = some e ∧ s'.step p selection = s''.proceed ∧
      s.PassedTo e (k + 1) s'' ∧ s''.memory = s'.memory := by
  have hcommand : cs[k]? = some cs[k] := List.getElem?_eq_getElem hk
  obtain ⟨line, hst⟩ := hcode.statement_at hcommand
  obtain ⟨e, he, -⟩ := exists_depthAfter_take hcs (k + 1)
  have hdepth := depthAfter_take_succ hcommand hd
  have hstep := step_of_skipping (h.awaiting.trans hwait) (h.choice.trans hchoice)
    (h.skipping hskip hheight) (h.pc ▸ hst) selection
  exact ⟨e, _, he, hstep, h.pass hskip hheight (hdepth.symm.trans he), memory_pass _ p _⟩

/-- At the end of a stretch the stack is as at its start, and all that has changed but the position are
marks of positions within it. -/
theorem PassedTo.eq (h : s.PassedTo 0 k s') (hmemory : s'.memory = s.memory) :
    s' = { s with pc := s.pc + k, started := s'.started, taken := s'.taken } := by
  obtain ⟨hpc, ⟨inner, hblocks, hlength, -⟩, hskip, hwait, hchoice, hprompt, -, -⟩ := h
  obtain rfl := List.length_eq_zero_iff.mp hlength
  cases s'
  cases hpc
  cases hblocks
  cases hskip
  cases hwait
  cases hchoice
  cases hprompt
  cases hmemory
  rfl

end State

end PocketBasic
