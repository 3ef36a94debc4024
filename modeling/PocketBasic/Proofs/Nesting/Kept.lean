import Mathlib.Data.List.Forall2
import PocketBasic.Proofs.Block.Play
import PocketBasic.Proofs.Nesting.Moves

/-!
# The block stack agrees with the tree, position by position

`Agrees` says that the block stack has one entry for each block around a position, an opener of it. `Kept`
says that a step from a position keeps the agreement and stays within a stretch of the program. It holds at
every position of a tree: first for each kind of statement, then along the tree.
-/

namespace PocketBasic

/-- The stack has one entry for each block, an opener of it, in the same order. -/
def Agrees (blocks : List Enclosure) (stack : List Nat) : Prop :=
  List.Forall₂ (fun b i => i ∈ b.openers) blocks stack

/-- A step from position `i` leads into the stretch from `lo` to `hi` and keeps the stack in agreement
with the blocks that `E` gives for each position. -/
structure Kept (p : Program) (E : Nat → List Enclosure) (lo hi i : Nat) : Prop where
  moves : ∀ s s' : State, s.Moves p s' → s.pc = i → Agrees (E i) s.blocks →
    lo ≤ s'.pc ∧ s'.pc ≤ hi ∧ Agrees (E s'.pc) s'.blocks
  inside : ∀ line, p.statements[i]? = some ⟨line, .endMark⟩ → E i ≠ []

section Positions

variable {p : Program} {E E' : Nat → List Enclosure} {lo hi lo' hi' i line : Nat} {c : Command}
  {b : Enclosure} {outer : List Enclosure}

theorem kept_of_statement (hst : p.statements[i]? = some ⟨line, c⟩) (hlo : lo ≤ i) (hhi : i ≤ hi)
    (hmoves : ∀ stack i' stack', Agrees (E i) stack → c.Moves p i stack i' stack' →
      lo ≤ i' ∧ i' ≤ hi ∧ Agrees (E i') stack')
    (hend : c = .endMark → E i ≠ []) : Kept p E lo hi i where
  moves s s' h hpc hagree := by
    subst hpc
    rcases h with ⟨hpc', hblocks⟩ | ⟨st, hst', hmove⟩
    · rw [hpc', hblocks]
      exact ⟨hlo, hhi, hagree⟩
    · rw [hst] at hst'
      cases hst'
      exact hmoves s.blocks s'.pc s'.blocks hagree hmove
  inside line' hst' := by
    rw [hst] at hst'
    cases hst'
    exact hend rfl

theorem Kept.congr (h : Kept p E lo hi i) (hE : ∀ j, lo ≤ j → j ≤ hi → E' j = E j)
    (hlo : lo ≤ i) (hhi : i ≤ hi) (hlo' : lo' ≤ lo) (hhi' : hi ≤ hi') : Kept p E' lo' hi' i where
  moves s s' hmoves hpc hagree := by
    rw [hE i hlo hhi] at hagree
    obtain ⟨hle, hle', hkept⟩ := h.moves s s' hmoves hpc hagree
    rw [hE s'.pc hle hle']
    exact ⟨Nat.le_trans hlo' hle, Nat.le_trans hle' hhi', hkept⟩
  inside line hst := by
    rw [hE i hlo hhi]
    exact h.inside line hst

theorem kept_plain (hst : p.statements[i]? = some ⟨line, c⟩) (hc : c.isPlain = true)
    (hnext : E (i + 1) = E i) : Kept p E i (i + 1) i := by
  refine kept_of_statement hst (Nat.le_refl i) (Nat.le_succ i) ?_ ?_
  · intro stack i' stack' hagree hmove
    obtain ⟨rfl, rfl⟩ := Command.moves_of_isPlain hc hmove
    rw [hnext]
    exact ⟨Nat.le_succ i, Nat.le_refl _, hagree⟩
  · rintro rfl
    cases hc

theorem kept_guard {cond : Expr} (hst : p.statements[i]? = some ⟨line, .ifTest cond⟩)
    (hthen : ¬ p.ThenAt (i + 1)) (hnext : E (i + 1) = E i) (hover : E (i + 2) = E i) :
    Kept p E i (i + 2) i := by
  refine kept_of_statement hst (Nat.le_refl i) (Nat.le_add_right i 2) ?_ (by simp)
  rintro stack i' stack' hagree (⟨rfl, rfl⟩ | ⟨rfl, ⟨hthen', -⟩ | ⟨-, rfl⟩⟩)
  · rw [hnext]
    exact ⟨Nat.le_succ i, Nat.le_succ _, hagree⟩
  · exact absurd hthen' hthen
  · rw [hover]
    exact ⟨Nat.le_add_right i 2, Nat.le_refl _, hagree⟩

theorem kept_test {cond : Expr} (hst : p.statements[i]? = some ⟨line, .ifTest cond⟩)
    (hthen : p.ThenAt (i + 1)) (hnext : E (i + 1) = E i) (hover : E (i + 2) = b :: E i)
    (hb : i ∈ b.openers) : Kept p E i (i + 2) i := by
  refine kept_of_statement hst (Nat.le_refl i) (Nat.le_add_right i 2) ?_ (by simp)
  rintro stack i' stack' hagree (⟨rfl, rfl⟩ | ⟨rfl, ⟨-, rfl⟩ | ⟨hthen', -⟩⟩)
  · rw [hnext]
    exact ⟨Nat.le_succ i, Nat.le_succ _, hagree⟩
  · rw [hover]
    exact ⟨Nat.le_add_right i 2, Nat.le_refl _, .cons hb hagree⟩
  · exact absurd hthen hthen'

theorem kept_open (hst : p.statements[i]? = some ⟨line, c⟩) (hc : c.isLoop = true ∨ c = .thenMark)
    (hnext : E (i + 1) = b :: E i) (hb : i ∈ b.openers) : Kept p E i (i + 1) i := by
  refine kept_of_statement hst (Nat.le_refl i) (Nat.le_succ i) ?_ ?_
  · intro stack i' stack' hagree hmove
    have hmoved : i' = i + 1 ∧ stack' = i :: stack := by
      rcases hc with hc | rfl
      · exact Command.moves_of_isLoop hc hmove
      · exact hmove
    obtain ⟨rfl, rfl⟩ := hmoved
    rw [hnext]
    exact ⟨Nat.le_succ i, Nat.le_refl _, .cons hb hagree⟩
  · rintro rfl
    rcases hc with hc | hc <;> cases hc

theorem kept_else (outer : List Enclosure) (hst : p.statements[i]? = some ⟨line, .elseMark⟩)
    (hat : E i = b :: outer)
    (hnext : E (i + 1) = b :: outer) (hb : i ∈ b.openers) : Kept p E i (i + 1) i := by
  refine kept_of_statement hst (Nat.le_refl i) (Nat.le_succ i) ?_ (by simp)
  rintro stack i' stack' hagree ⟨rfl, rfl⟩
  rw [hat] at hagree
  rw [hnext]
  cases hagree with
  | cons _ hrest => exact ⟨Nat.le_succ i, Nat.le_refl _, .cons hb hrest⟩

theorem kept_head {a line' : Nat} {cond : Expr} (hif : p.statements[a]? = some ⟨line, .ifTest cond⟩)
    (hthen : p.statements[a + 1]? = some ⟨line', .thenMark⟩) (hat : E a = outer)
    (hnext : E (a + 1) = outer) (hover : E (a + 2) = b :: outer) (hb : a ∈ b.openers)
    (hb' : a + 1 ∈ b.openers) (hlo : a ≤ i) (hhi : i < a + 2) : Kept p E a (a + 2) i := by
  rcases Nat.eq_or_lt_of_le hlo with rfl | hlt
  · exact kept_test hif ⟨line', hthen⟩ (hnext.trans hat.symm) (by rw [hat, hover]) hb
  · obtain rfl : i = a + 1 := by omega
    have hopen : Kept p E (a + 1) (a + 2) (a + 1) :=
      kept_open hthen (.inr rfl) (by rw [hnext, hover]) hb'
    exact hopen.congr (fun _ _ _ => rfl) (Nat.le_refl _) (Nat.le_succ _) (Nat.le_succ a) (Nat.le_refl _)

/-- An End goes on behind it or back to the header of its loop. -/
theorem kept_end (outer : List Enclosure) (hst : p.statements[i]? = some ⟨line, .endMark⟩)
    (hat : E i = b :: outer) (hnext : E (i + 1) = outer) (hlo : lo ≤ i)
    (hback : ∀ j ∈ b.openers, p.LoopAt j → lo ≤ j ∧ j ≤ i ∧ E j = outer) :
    Kept p E lo (i + 1) i := by
  refine kept_of_statement hst hlo (Nat.le_succ i) ?_ (by simp [hat])
  rintro stack i' stack' hagree ⟨rfl, hgo⟩
  rw [hat] at hagree
  cases hagree with
  | cons hmem hrest =>
    rcases hgo with rfl | ⟨hhead, hloop⟩
    · rw [hnext]
      exact ⟨Nat.le_succ_of_le hlo, Nat.le_refl _, hrest⟩
    · -- Back at the header the loop is not open: its block is the one that was closed.
      cases hhead
      obtain ⟨hle, hle', hj⟩ := hback _ hmem hloop
      rw [hj]
      exact ⟨hle, Nat.le_succ_of_le hle', hrest⟩

end Positions

section Trees

variable {p : Program} {a i : Nat} {outer : List Enclosure} {inBranch : Bool}

theorem not_thenAt_of_code {c : Command} {cs : List Command} (h : Code p a (c :: cs))
    (hc : c ≠ .thenMark) : ¬ p.ThenAt a := by
  rintro ⟨line, hthen⟩
  obtain ⟨line', hst⟩ := h.statement
  rw [hst] at hthen
  cases hthen
  exact hc rfl

theorem not_loopAt {line : Nat} {c : Command} (hst : p.statements[i]? = some ⟨line, c⟩)
    (hc : c.isLoop = false) : ¬ p.LoopAt i := by
  rintro ⟨st, hst', hloop⟩
  rw [hst] at hst'
  cases hst'
  rw [hc] at hloop
  cases hloop

theorem kept_guarded {c : Command} (hc : c.isPlain = true) (tests : List Expr)
    (h : Code p a (tests.map .ifTest ++ [c])) (hlo : a ≤ i) (hhi : i < a + (tests.length + 1)) :
    Kept p (fun _ => outer) a (a + (tests.length + 1)) i := by
  induction tests generalizing a with
  | nil =>
    obtain ⟨line, hst⟩ := h.statement
    obtain rfl : i = a := by
      simp only [List.length_nil] at hhi
      omega
    exact kept_plain hst hc rfl
  | cons cond tests ih =>
    simp only [List.length_cons] at hhi ⊢
    rcases Nat.eq_or_lt_of_le hlo with rfl | hlt
    · obtain ⟨line, hst⟩ := h.statement
      have hnext : ¬ p.ThenAt (a + 1) := by
        cases tests with
        | nil => exact not_thenAt_of_code h.tail (by rintro rfl; cases hc)
        | cons cond' tests => exact not_thenAt_of_code h.tail (by simp)
      exact (kept_guard hst hnext rfl rfl).congr (fun _ _ _ => rfl) (Nat.le_refl a) (by omega)
        (Nat.le_refl a) (by omega)
    · exact (ih h.tail hlt (by omega)).congr (fun _ _ _ => rfl) hlt (by omega) (by omega) (by omega)

theorem kept_loop {header : Command} (isLoop : header.isLoop = true) {body : Nest false}
    (h : Code p a (Nest.loop header isLoop body : Nest inBranch).commands)
    (hbody : ∀ i, a + 1 ≤ i → i < a + 1 + body.size →
      Kept p (body.enclosing (a + 1) (.loop a :: outer) ·) (a + 1) (a + 1 + body.size) i)
    (hlo : a ≤ i) (hhi : i < a + (1 + body.size + 1)) :
    Kept p ((Nest.loop header isLoop body : Nest inBranch).enclosing a outer ·) a
      (a + (1 + body.size + 1)) i := by
  obtain ⟨l, l', hhead, -, hend⟩ := h.bracket
  have hE {j : Nat} (hj : a + 1 ≤ j) (hj' : j ≤ a + 1 + body.size) :
      (Nest.loop header isLoop body : Nest inBranch).enclosing a outer j =
        body.enclosing (a + 1) (.loop a :: outer) j := Nest.enclosing_body body isLoop hj hj'
  have hstart : (Nest.loop header isLoop body : Nest inBranch).enclosing a outer a = outer :=
    Nest.enclosing_outside _ (.inl (Nat.le_refl a))
  rcases Nat.eq_or_lt_of_le hlo with rfl | hlt
  · have hopen : Kept p ((Nest.loop header isLoop body : Nest inBranch).enclosing a outer ·) a (a + 1) a := by
      refine kept_open hhead (.inl isLoop) (b := .loop a) ?_ (by simp [Enclosure.openers])
      rw [hstart, hE (Nat.le_refl _) (by omega), Nest.enclosing_outside _ (.inl (Nat.le_refl _))]
    exact hopen.congr (fun _ _ _ => rfl) (Nat.le_refl a) (by omega) (Nat.le_refl a) (by omega)
  · by_cases hlast : i < a + 1 + body.size
    · exact (hbody i hlt hlast).congr (fun j hj hj' => hE hj hj') hlt (by omega) (by omega) (by omega)
    · obtain rfl : i = a + 1 + body.size := by omega
      have hclose : Kept p ((Nest.loop header isLoop body : Nest inBranch).enclosing a outer ·) a
          (a + 1 + body.size + 1) (a + 1 + body.size) := by
        refine kept_end outer hend (b := .loop a) ?_ ?_ hlo ?_
        · rw [hE (by omega) (Nat.le_refl _), Nest.enclosing_outside _ (.inr (Nat.le_refl _))]
        · exact Nest.enclosing_outside _ (.inr (by rw [Nest.size_loop]; omega))
        · intro j hj _
          obtain rfl : j = a := by simpa [Enclosure.openers] using hj
          exact ⟨Nat.le_refl j, hlo, hstart⟩
      exact hclose.congr (fun _ _ _ => rfl) hlo (by omega) (Nat.le_refl a) (by omega)

theorem elseMark_of_mem_elses (t : Nest inBranch) (h : Code p a t.commands) {j : Nat} (hj : j ∈ t.elses a) :
    ∃ line, p.statements[j]? = some ⟨line, .elseMark⟩ := by
  induction t generalizing a with
  | otherwise =>
    rw [List.mem_singleton.mp hj]
    exact h.statement
  | sequence first second ih₁ ih₂ =>
    rcases List.mem_append.mp hj with hj | hj
    · exact ih₁ h.left hj
    · exact ih₂ h.right hj
  | empty | guarded | loop | branch => cases hj

theorem kept_branch {cond : Expr} {part : Nest true}
    (h : Code p a (Nest.branch cond part : Nest inBranch).commands)
    (hpart : ∀ i, a + 2 ≤ i → i < a + 2 + part.size →
      Kept p (part.enclosing (a + 2) (.branch a (part.elses (a + 2)) :: outer) ·) (a + 2)
        (a + 2 + part.size) i)
    (hlo : a ≤ i) (hhi : i < a + (2 + part.size + 1)) :
    Kept p ((Nest.branch cond part : Nest inBranch).enclosing a outer ·) a
      (a + (2 + part.size + 1)) i := by
  obtain ⟨l, hif⟩ := h.statement
  obtain ⟨l', l'', hthen, hcode, hend⟩ := h.tail.bracket
  have hE {j : Nat} (hj : a + 2 ≤ j) (hj' : j ≤ a + 2 + part.size) :
      (Nest.branch cond part : Nest inBranch).enclosing a outer j =
        part.enclosing (a + 2) (.branch a (part.elses (a + 2)) :: outer) j :=
    Nest.enclosing_part part cond hj hj'
  by_cases hhead : i < a + 2
  · have hopen := kept_head (b := .branch a (part.elses (a + 2))) hif hthen
      (E := ((Nest.branch cond part : Nest inBranch).enclosing a outer ·))
      (Nest.enclosing_outside _ (.inl (Nat.le_refl a))) (Nest.enclosing_then part cond)
      (by rw [hE (Nat.le_refl _) (by omega), Nest.enclosing_outside _ (.inl (Nat.le_refl _))])
      (by simp [Enclosure.openers]) (by simp [Enclosure.openers]) hlo hhead
    exact hopen.congr (fun _ _ _ => rfl) hlo (by omega) (Nat.le_refl a) (by omega)
  · by_cases hlast : i < a + 2 + part.size
    · exact (hpart i (by omega) hlast).congr (fun j hj hj' => hE hj hj') (by omega) (by omega)
        (by omega) (by omega)
    · obtain rfl : i = a + 2 + part.size := by omega
      have hclose : Kept p ((Nest.branch cond part : Nest inBranch).enclosing a outer ·) a
          (a + 2 + part.size + 1) (a + 2 + part.size) := by
        refine kept_end outer hend (b := .branch a (part.elses (a + 2))) ?_ ?_ hlo ?_
        · rw [hE (by omega) (Nat.le_refl _), Nest.enclosing_outside _ (.inr (Nat.le_refl _))]
        · exact Nest.enclosing_outside _ (.inr (by rw [Nest.size_branch]; omega))
        · intro j hj hloop
          exfalso
          have hcases : j = a ∨ j = a + 1 ∨ j ∈ part.elses (a + 2) := by
            simpa [Enclosure.openers] using hj
          rcases hcases with rfl | rfl | hj
          · exact not_loopAt hif rfl hloop
          · exact not_loopAt hthen rfl hloop
          · obtain ⟨line, helse⟩ := elseMark_of_mem_elses part hcode hj
            exact not_loopAt helse rfl hloop
      exact hclose.congr (fun _ _ _ => rfl) hlo (by omega) (Nat.le_refl a) (by omega)

/-- The Elses of a tree are openers of the innermost block around it. -/
def Nest.Divides (t : Nest inBranch) (a : Nat) (outer : List Enclosure) : Prop :=
  ∀ j ∈ t.elses a, ∃ b rest, outer = b :: rest ∧ j ∈ b.openers

theorem Nest.divides_nothing (t : Nest false) (a : Nat) (outer : List Enclosure) : t.Divides a outer := by
  rw [Divides, t.elses_eq_nil rfl]
  exact fun j hj => absurd hj List.not_mem_nil

/-- Every position of a tree keeps the agreement and leads within the tree or right behind it. -/
theorem kept_nest (t : Nest inBranch) (h : Code p a t.commands) (helses : t.Divides a outer)
    (hlo : a ≤ i) (hhi : i < a + t.size) : Kept p (t.enclosing a outer ·) a (a + t.size) i := by
  induction t generalizing a outer i with
  | empty => exact absurd hhi (Nat.not_lt.mpr hlo)
  | guarded tests c plain =>
    rw [Nest.size_guarded] at hhi ⊢
    exact kept_guarded plain tests h hlo hhi
  | otherwise =>
    obtain ⟨line, helse⟩ := h.statement
    obtain ⟨b, rest, rfl, hb⟩ := helses a (List.mem_singleton_self a)
    have hsize : Nest.otherwise.size = 1 := rfl
    obtain rfl : i = a := by omega
    exact kept_else rest helse rfl rfl hb
  | sequence first second ih₁ ih₂ =>
    rw [Nest.size_sequence] at hhi ⊢
    by_cases hfirst : i < a + first.size
    · have hkept := ih₁ h.left (fun j hj => helses j (List.mem_append_left _ hj)) hlo hfirst
      exact hkept.congr (fun j _ hj => Nest.enclosing_first first second hj) hlo
        (by omega) (Nat.le_refl a) (by omega)
    · have hle := Nat.not_lt.mp hfirst
      have hsecond : Code p (a + first.size) second.commands := h.right
      have hkept := ih₂ hsecond (fun j hj => helses j (List.mem_append_right _ hj)) hle (by omega)
      exact hkept.congr (fun j hj _ => Nest.enclosing_second first second hj) hle (by omega) (by omega)
        (by omega)
  | loop header isLoop body ih =>
    obtain ⟨-, -, -, hbody, -⟩ := h.bracket
    rw [Nest.size_loop] at hhi ⊢
    exact kept_loop isLoop h (fun _ hj hj' => ih hbody (body.divides_nothing _ _) hj hj') hlo hhi
  | branch cond part ih =>
    obtain ⟨-, -, -, hpart, -⟩ := h.tail.bracket
    rw [Nest.size_branch] at hhi ⊢
    refine kept_branch h (fun _ hj hj' => ih hpart (fun k hk => ?_) hj hj') hlo hhi
    exact ⟨_, outer, rfl, List.mem_cons_of_mem _ (List.mem_cons_of_mem _ hk)⟩

end Trees

end PocketBasic
