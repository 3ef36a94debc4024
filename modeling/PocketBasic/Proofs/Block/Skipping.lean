import PocketBasic.Proofs.Block.Basic
import PocketBasic.Proofs.Block.Place
import PocketBasic.Proofs.Block.Play

/-!
# Passing over a block

A machine that skips goes over the statements of a nested block without any effect and with the block
stack and the skip height as before, provided that no For loop inside the block counts as started.
-/

namespace PocketBasic

/-- The machine skips the statements from `a` on and before `b`. -/
def Passes (p : Program) (selection : Int) (a b : Nat) : Prop :=
  ∀ m lines height blocks started taken, height ≤ blocks.length → started.Free a b →
    ∃ taken' : Marks, taken.AgreeBelow taken' a ∧
      Leads p selection (Place.state ⟨a, blocks, some height, started, taken⟩ m) lines []
        (Place.state ⟨b, blocks, some height, started, taken'⟩ m) lines

section Passing

variable {p : Program} {selection : Int} {a b c line height : Nat} {m : Memory}
  {lines : List String} {blocks : List Nat} {started taken : Marks}

theorem leads_pass_open {x : Command} (h : p.statements[a]? = some ⟨line, x⟩)
    (hx : ∀ s : State, s.pass p x = (s.push s.pc).next) (hh : height ≤ blocks.length) :
    Leads p selection (Place.state ⟨a, blocks, some height, started, taken⟩ m) lines []
      (Place.state ⟨a + 1, a :: blocks, some height, started, taken⟩ m) lines := by
  apply Leads.running
  rw [Place.step_pass h hh, hx]
  rfl

/-- Passing an Else replaces the opener. Skipping ends at the height at which it began. -/
theorem leads_pass_else {i : Nat} {skip : Option Nat}
    (h : p.statements[a]? = some ⟨line, .elseMark⟩) (hh : height ≤ blocks.length + 1)
    (hskip : (if height = blocks.length + 1 then none else some height) = skip) :
    Leads p selection (Place.state ⟨a, i :: blocks, some height, started, taken⟩ m) lines []
      (Place.state ⟨a + 1, a :: blocks, skip, started, taken⟩ m) lines := by
  apply Leads.running
  rw [Place.step_pass h hh]
  simp [State.pass, Place.state, State.proceed, hskip]

/-- Passing an End closes the block on top. Skipping goes on in an outer block only. -/
theorem leads_pass_end {i : Nat} {skip : Option Nat} {started' : Marks}
    (h : p.statements[a]? = some ⟨line, .endMark⟩) (hh : height ≤ blocks.length + 1)
    (hskip : (some height).filter (· ≤ blocks.length) = skip) (hclear : started.clear i = started')
    (hother : started = started' ∨ ∃ l var start stop step,
      p.statements[i]? = some ⟨l, .forLoop var start stop step⟩) :
    Leads p selection (Place.state ⟨a, i :: blocks, some height, started, taken⟩ m) lines []
      (Place.state ⟨a + 1, blocks, skip, started', taken.clear i⟩ m) lines := by
  apply Leads.running
  rw [Place.step_pass h hh]
  simp only [State.pass, Place.state, State.proceed, List.tail_cons]
  congr 2
  rcases hother with heq | ⟨l, var, start, stop, step, hi⟩
  · split
    · exact hclear
    · exact heq
  · rw [hi]
    exact hclear

theorem passes_nothing (p : Program) (selection : Int) (a : Nat) : Passes p selection a a :=
  fun _ _ _ _ _ taken _ _ => ⟨taken, .refl _ _, .refl ..⟩

theorem Passes.trans (h : Passes p selection a b) (h' : Passes p selection b c) (hab : a ≤ b)
    (hbc : b ≤ c) : Passes p selection a c := by
  intro m lines height blocks started taken hh hf
  obtain ⟨taken₁, ht₁, h₁⟩ := h m lines height blocks started taken hh (hf.mono (Nat.le_refl a) hbc)
  obtain ⟨taken₂, ht₂, h₂⟩ := h' m lines height blocks started taken₁ hh
    (hf.mono hab (Nat.le_refl c))
  exact ⟨taken₂, ht₁.trans ht₂ (Nat.le_refl a) hab, h₁.trans h₂⟩

theorem passes_plain {x : Command} (h : p.statements[a]? = some ⟨line, x⟩)
    (hx : ∀ s : State, s.pass p x = s.next) : Passes p selection a (a + 1) := by
  intro m lines height blocks started taken hh _
  refine ⟨taken, .refl _ _, Leads.running ?_⟩
  rw [Place.step_pass h hh, hx]
  rfl

theorem pass_simple (c : Simple) (s : State) : s.pass p c.command = s.next := by
  cases c <;> rfl

/-- An opener, a body that is passed and an End are passed together. -/
theorem passes_bracket {x : Command} {l : Nat} (h : p.statements[a]? = some ⟨line, x⟩)
    (hx : ∀ s : State, s.pass p x = (s.push s.pc).next) (hab : a < b)
    (hbody : Passes p selection (a + 1) b) (hend : p.statements[b]? = some ⟨l, .endMark⟩) :
    Passes p selection a (b + 1) := by
  intro m lines height blocks started taken hh hf
  obtain ⟨taken₁, ht₁, h₁⟩ := hbody m lines height (a :: blocks) started taken
    (Nat.le_succ_of_le hh) (hf.mono (by omega) (by omega))
  have hclear := Marks.clear_of_not_has (hf a (by omega) (by omega))
  have hskip : (some height).filter (· ≤ blocks.length) = some height := by simp [hh]
  refine ⟨taken₁.clear a, ?_, ((leads_pass_open h hx hh).trans h₁).trans
    (leads_pass_end hend (Nat.le_succ_of_le hh) hskip hclear (.inl rfl))⟩
  exact ht₁.trans (taken₁.agreeBelow_clear (Nat.le_refl a)) (by omega) (Nat.le_refl a)

/-- A Then, two bodies that are passed with an Else between them, and an End are passed together. -/
theorem passes_alternative {l l' : Nat} (h : p.statements[a]? = some ⟨line, .thenMark⟩)
    (hab : a < b) (hyes : Passes p selection (a + 1) b)
    (helse : p.statements[b]? = some ⟨l, .elseMark⟩) (hbc : b < c)
    (hno : Passes p selection (b + 1) c) (hend : p.statements[c]? = some ⟨l', .endMark⟩) :
    Passes p selection a (c + 1) := by
  intro m lines height blocks started taken hh hf
  obtain ⟨taken₁, ht₁, h₁⟩ := hyes m lines height (a :: blocks) started taken
    (Nat.le_succ_of_le hh) (hf.mono (by omega) (by omega))
  obtain ⟨taken₂, ht₂, h₂⟩ := hno m lines height (b :: blocks) started taken₁
    (Nat.le_succ_of_le hh) (hf.mono (by omega) (by omega))
  have hclear := Marks.clear_of_not_has (hf b (by omega) (by omega))
  have hskip : (some height).filter (· ≤ blocks.length) = some height := by simp [hh]
  have hne : ¬ height = blocks.length + 1 := by omega
  refine ⟨taken₂.clear b, ?_, ((((leads_pass_open h (fun _ => rfl) hh).trans h₁).trans
    (leads_pass_else helse (Nat.le_succ_of_le hh) (if_neg hne))).trans h₂).trans
    (leads_pass_end hend (Nat.le_succ_of_le hh) hskip hclear (.inl rfl))⟩
  exact (ht₁.trans ht₂ (Nat.le_refl _) (by omega)).trans
    (taken₂.agreeBelow_clear (Nat.le_refl b)) (by omega) (by omega)

theorem passes_block (t : Block) (h : Code p a t.commands) (hb : b = a + t.commands.length) :
    Passes p selection a b := by
  induction t generalizing a b with
  | empty =>
    rw [hb]
    exact passes_nothing p selection a
  | sequence first second ih₁ ih₂ =>
    have hlen : b = a + first.commands.length + second.commands.length := by
      rw [hb, Block.commands, List.length_append, Nat.add_assoc]
    exact (ih₁ h.left rfl).trans (ih₂ h.right hlen) (by omega) (by omega)
  | simple c =>
    obtain ⟨line, hs⟩ := h.statement
    rw [hb]
    exact passes_plain hs (pass_simple c)
  | guarded cond c =>
    obtain ⟨line, hs⟩ := h.statement
    obtain ⟨line', hs'⟩ := h.tail.statement
    rw [hb]
    exact (passes_plain hs (fun _ => rfl)).trans (passes_plain hs' (pass_simple c))
      (Nat.le_add_right a 1) (Nat.le_add_right (a + 1) 1)
  | branch cond yes ih =>
    obtain ⟨line, hif⟩ := h.statement
    obtain ⟨l, l', hthen, hyes, hend⟩ := h.tail.bracket
    have hlen : b = a + 1 + 1 + yes.commands.length + 1 := by rw [hb, Block.length_branch]; omega
    rw [hlen]
    exact (passes_plain hif (fun _ => rfl)).trans
      (passes_bracket hthen (fun _ => rfl) (by omega) (ih hyes rfl) hend) (by omega) (by omega)
  | branchElse cond yes no ih₁ ih₂ =>
    obtain ⟨line, hif⟩ := h.statement
    obtain ⟨l, l', l'', hthen, hyes, helse, hno, hend⟩ := h.tail.brackets
    have hlen : b = a + 1 + 1 + yes.commands.length + 1 + no.commands.length + 1 := by
      rw [hb, Block.length_branchElse]
      omega
    rw [hlen]
    exact (passes_plain hif (fun _ => rfl)).trans
      (passes_alternative hthen (by omega) (ih₁ hyes rfl) helse (by omega) (ih₂ hno rfl) hend)
      (by omega) (by omega)
  | whileLoop cond body ih =>
    obtain ⟨l, l', hhead, hbody, hend⟩ := h.bracket
    have hlen : b = a + 1 + body.commands.length + 1 := by rw [hb, Block.length_whileLoop]; omega
    rw [hlen]
    exact passes_bracket hhead (fun _ => rfl) (by omega) (ih hbody rfl) hend
  | repeatLoop cond body ih =>
    obtain ⟨l, l', hhead, hbody, hend⟩ := h.bracket
    have hlen : b = a + 1 + body.commands.length + 1 := by rw [hb, Block.length_repeatLoop]; omega
    rw [hlen]
    exact passes_bracket hhead (fun _ => rfl) (by omega) (ih hbody rfl) hend
  | forLoop var start stop step body ih =>
    obtain ⟨l, l', hhead, hbody, hend⟩ := h.bracket
    have hlen : b = a + 1 + body.commands.length + 1 := by rw [hb, Block.length_forLoop]; omega
    rw [hlen]
    exact passes_bracket hhead (fun _ => rfl) (by omega) (ih hbody rfl) hend

end Passing

end PocketBasic
