import PocketBasic.Proofs.Block.Skipping
import PocketBasic.Proofs.Block.Stepping

/-!
# The flat machine realizes nested programs

A block that stands in a program from position `a` on is entered by putting the program counter to
`a`. `Realizes` says that the machine then shows what the block's meaning shows and comes to the
position behind the block, with the memory of the meaning and the block stack as before. It needs that
no For loop inside the block counts as started, and it leaves the started loops as they were.
-/

namespace PocketBasic

/-- The machine goes over the statements from `a` on and before `b` with the given effect. -/
def Realizes (p : Program) (selection : Int) (a b : Nat) (e : Effect) : Prop :=
  ∀ w shown w', e w shown w' → ∀ blocks started taken, started.Free a b →
    ∃ taken' : Marks, taken.AgreeBelow taken' a ∧
      Leads p selection (Place.state ⟨a, blocks, none, started, taken⟩ w.memory) w.lines shown
        (Place.state ⟨b, blocks, none, started, taken'⟩ w'.memory) w'.lines

section Realizing

variable {p : Program} {selection : Int} {a b c line : Nat} {cond : Expr} {e e' : Effect}

theorem realizes_nothing (p : Program) (selection : Int) (a : Nat) :
    Realizes p selection a a .nothing := by
  rintro w shown w' ⟨rfl, rfl⟩ blocks started taken _
  exact ⟨taken, .refl _ _, .refl ..⟩

theorem Realizes.followedBy (h : Realizes p selection a b e) (h' : Realizes p selection b c e')
    (hab : a ≤ b) (hbc : b ≤ c) : Realizes p selection a c (e.followedBy e') := by
  rintro w shown w' ⟨first, w₁, second, he, he', rfl⟩ blocks started taken hf
  obtain ⟨taken₁, ht₁, h₁⟩ := h w first w₁ he blocks started taken (hf.mono (Nat.le_refl a) hbc)
  obtain ⟨taken₂, ht₂, h₂⟩ := h' w₁ second w' he' blocks started taken₁
    (hf.mono hab (Nat.le_refl c))
  exact ⟨taken₂, ht₁.trans ht₂ (Nat.le_refl a) hab, h₁.trans h₂⟩

theorem realizes_simple {s : Simple} (h : p.statements[a]? = some ⟨line, s.command⟩) :
    Realizes p selection a (a + 1) s.Runs := by
  intro w shown w' he blocks started taken _
  exact ⟨taken, .refl _ _, leads_simple h w w' shown he⟩

theorem realizes_guarded {s : Simple} {l : Nat} (h : p.statements[a]? = some ⟨line, .ifTest cond⟩)
    (hs : p.statements[a + 1]? = some ⟨l, s.command⟩) :
    Realizes p selection a (a + 2) (.choose cond s.Runs .nothing) := by
  rintro w shown w' ⟨w₁, ⟨ht, he⟩ | ⟨ht, rfl, rfl⟩⟩ blocks started taken _
  · exact ⟨taken, .refl _ _, (leads_guard h hs ht).trans (leads_simple hs w₁ w' shown he)⟩
  · exact ⟨taken, .refl _ _, leads_guard h hs ht⟩

theorem filter_skip (blocks : List Nat) :
    (some (blocks.length + 1)).filter (· ≤ blocks.length) = none := by
  simp

theorem realizes_branch {l l' : Nat} (h : p.statements[a]? = some ⟨line, .ifTest cond⟩)
    (hthen : p.statements[a + 1]? = some ⟨l, .thenMark⟩) (hab : a + 2 ≤ b)
    (hyes : Realizes p selection (a + 2) b e) (hpass : Passes p selection (a + 2) b)
    (hend : p.statements[b]? = some ⟨l', .endMark⟩) :
    Realizes p selection a (b + 1) (.choose cond e .nothing) := by
  rintro w shown w' ⟨w₁, ⟨ht, he⟩ | ⟨ht, rfl, rfl⟩⟩ blocks started taken hf
  · obtain ⟨taken₁, ht₁, h₁⟩ := hyes w₁ shown w' he (a :: blocks) started (taken.put a true)
      (hf.mono (by omega) (by omega))
    have hrun := ((leads_if h hthen ht).trans h₁).trans (leads_end_branch hend (.inl ⟨cond, h⟩))
    rw [List.append_nil] at hrun
    refine ⟨taken₁.clear a, ?_, hrun⟩
    exact ((taken.agreeBelow_mark (Nat.le_refl a)).trans ht₁ (Nat.le_refl a) (by omega)).trans
      (taken₁.agreeBelow_clear (Nat.le_refl a)) (Nat.le_refl a) (Nat.le_refl a)
  · obtain ⟨taken₁, ht₁, h₁⟩ := hpass w'.memory w'.lines (blocks.length + 1) (a :: blocks) started
      (taken.put a false) (Nat.le_refl _) (hf.mono (by omega) (by omega))
    have hclear := Marks.clear_of_not_has (hf a (by omega) (by omega))
    refine ⟨taken₁.clear a, ?_, ((leads_if h hthen ht).trans h₁).trans
      (leads_pass_end hend (Nat.le_refl _) (filter_skip blocks) hclear (.inl rfl))⟩
    exact ((taken.agreeBelow_clear (Nat.le_refl a)).trans ht₁ (Nat.le_refl a) (by omega)).trans
      (taken₁.agreeBelow_clear (Nat.le_refl a)) (Nat.le_refl a) (Nat.le_refl a)

theorem realizes_branchElse {l l' l'' : Nat} (h : p.statements[a]? = some ⟨line, .ifTest cond⟩)
    (hthen : p.statements[a + 1]? = some ⟨l, .thenMark⟩) (hab : a + 2 ≤ b)
    (hyes : Realizes p selection (a + 2) b e) (hyes' : Passes p selection (a + 2) b)
    (helse : p.statements[b]? = some ⟨l', .elseMark⟩) (hbc : b < c)
    (hno : Realizes p selection (b + 1) c e') (hno' : Passes p selection (b + 1) c)
    (hend : p.statements[c]? = some ⟨l'', .endMark⟩) :
    Realizes p selection a (c + 1) (.choose cond e e') := by
  rintro w shown w' ⟨w₁, ⟨ht, he⟩ | ⟨ht, he⟩⟩ blocks started taken hf
  · obtain ⟨taken₁, ht₁, h₁⟩ := hyes w₁ shown w' he (a :: blocks) started (taken.put a true)
      (hf.mono (by omega) (by omega))
    have htaken : taken₁.has a = true := by
      rw [ht₁ a (by omega)]
      simp [Marks.put, Marks.has_mark]
    obtain ⟨taken₂, ht₂, h₂⟩ := hno' w'.memory w'.lines (blocks.length + 1) (b :: blocks) started
      (taken₁.clear a) (Nat.le_refl _) (hf.mono (by omega) (by omega))
    have hclear := Marks.clear_of_not_has (hf b (by omega) (by omega))
    have hrun := ((((leads_if h hthen ht).trans h₁).trans (leads_else helse htaken)).trans h₂).trans
      (leads_pass_end hend (Nat.le_refl _) (filter_skip blocks) hclear (.inl rfl))
    simp only [List.append_nil] at hrun
    refine ⟨taken₂.clear b, ?_, hrun⟩
    have hbefore : taken.AgreeBelow (taken₁.clear a) a :=
      ((taken.agreeBelow_mark (Nat.le_refl a)).trans ht₁ (Nat.le_refl a) (by omega)).trans
        (taken₁.agreeBelow_clear (Nat.le_refl a)) (Nat.le_refl a) (Nat.le_refl a)
    exact (hbefore.trans ht₂ (Nat.le_refl a) (by omega)).trans
      (taken₂.agreeBelow_clear (Nat.le_refl b)) (Nat.le_refl a) (by omega)
  · obtain ⟨taken₁, ht₁, h₁⟩ := hyes' w₁.memory w₁.lines (blocks.length + 1) (a :: blocks) started
      (taken.put a false) (Nat.le_refl _) (hf.mono (by omega) (by omega))
    obtain ⟨taken₂, ht₂, h₂⟩ := hno w₁ shown w' he (b :: blocks) started taken₁
      (hf.mono (by omega) (by omega))
    have hrun := ((((leads_if h hthen ht).trans h₁).trans
      (leads_pass_else helse (Nat.le_refl _) (if_pos rfl))).trans h₂).trans
      (leads_end_branch hend (.inr helse))
    simp only [List.nil_append, List.append_nil] at hrun
    refine ⟨taken₂.clear b, ?_, hrun⟩
    have hbefore : taken.AgreeBelow taken₂ a :=
      ((taken.agreeBelow_clear (Nat.le_refl a)).trans ht₁ (Nat.le_refl a) (by omega)).trans ht₂
        (Nat.le_refl a) (by omega)
    exact hbefore.trans (taken₂.agreeBelow_clear (Nat.le_refl b)) (Nat.le_refl a) (by omega)

theorem realizes_while {l : Nat} (h : p.statements[a]? = some ⟨line, .whileLoop cond⟩) (hab : a < b)
    (hbody : Realizes p selection (a + 1) b e) (hpass : Passes p selection (a + 1) b)
    (hend : p.statements[b]? = some ⟨l, .endMark⟩) :
    Realizes p selection a (b + 1) (.WhileRuns cond e) := by
  intro w shown w' he blocks started taken hf
  have hbody' : started.Free (a + 1) b := hf.mono (by omega) (by omega)
  induction he generalizing taken with
  | @stop w w₁ ht =>
    obtain ⟨taken₁, ht₁, h₁⟩ := hpass w₁.memory w₁.lines (blocks.length + 1) (a :: blocks) started
      taken (Nat.le_refl _) hbody'
    have hclear := Marks.clear_of_not_has (hf a (by omega) (by omega))
    refine ⟨taken₁.clear a, ?_, ((leads_while h ht).trans h₁).trans
      (leads_pass_end hend (Nat.le_refl _) (filter_skip blocks) hclear (.inl rfl))⟩
    exact ht₁.trans (taken₁.agreeBelow_clear (Nat.le_refl a)) (by omega) (Nat.le_refl a)
  | @again w w₁ w₂ w₃ shown more ht once _ ih =>
    obtain ⟨taken₁, ht₁, h₁⟩ := hbody w₁ shown w₂ once (a :: blocks) started taken hbody'
    obtain ⟨taken₂, ht₂, h₂⟩ := ih taken₁
    have hrun := (((leads_while h ht).trans h₁).trans (leads_end_while hend h)).trans h₂
    simp only [List.nil_append, List.append_nil] at hrun
    exact ⟨taken₂, ht₁.trans ht₂ (by omega) (Nat.le_refl a), hrun⟩

theorem realizes_repeat {l : Nat} (h : p.statements[a]? = some ⟨line, .repeatLoop cond⟩)
    (hbody : Realizes p selection (a + 1) b e)
    (hend : p.statements[b]? = some ⟨l, .endMark⟩) :
    Realizes p selection a (b + 1) (.RepeatRuns cond e) := by
  intro w shown w' he blocks started taken hf
  have hbody' : started.Free (a + 1) b := hf.mono (by omega) (by omega)
  induction he generalizing taken with
  | @stop w w₁ w₂ shown once ht =>
    obtain ⟨taken₁, ht₁, h₁⟩ := hbody w shown w₁ once (a :: blocks) started taken hbody'
    have hrun := ((leads_repeat h).trans h₁).trans (leads_end_repeat hend h ht)
    simp only [List.nil_append, List.append_nil] at hrun
    exact ⟨taken₁, ht₁.trans (.refl _ a) (by omega) (Nat.le_refl a), hrun⟩
  | @again w w₁ w₂ w₃ shown more once ht _ ih =>
    obtain ⟨taken₁, ht₁, h₁⟩ := hbody w shown w₁ once (a :: blocks) started taken hbody'
    obtain ⟨taken₂, ht₂, h₂⟩ := ih taken₁
    have hrun := (((leads_repeat h).trans h₁).trans (leads_end_repeat hend h ht)).trans h₂
    simp only [List.nil_append, List.append_nil] at hrun
    exact ⟨taken₂, ht₁.trans ht₂ (by omega) (Nat.le_refl a), hrun⟩

theorem leads_for_loop {l : Nat} {var : String} {start stop step : Expr} {w w' : World}
    {shown : List Signal} {blocks : List Nat} {started : Marks} (taken : Marks)
    (h : p.statements[a]? = some ⟨line, .forLoop var start stop step⟩) (hab : a < b)
    (hbody : Realizes p selection (a + 1) b e) (hpass : Passes p selection (a + 1) b)
    (hend : p.statements[b]? = some ⟨l, .endMark⟩) (hf : started.Free a (b + 1))
    (he : Effect.ForRuns var stop step e w shown w') :
    ∃ taken' : Marks, taken.AgreeBelow taken' a ∧
      Leads p selection (Place.state ⟨a, blocks, none, started.mark a, taken⟩ w.memory) w.lines
        shown (Place.state ⟨b + 1, blocks, none, started, taken'⟩ w'.memory) w'.lines := by
  have hmark : (started.mark a).has a = true := by simp [Marks.has_mark]
  have hclear : (started.mark a).clear a = started :=
    Marks.clear_mark (hf a (by omega) (by omega))
  have hfree : (started.mark a).Free (a + 1) b := (hf.mono (by omega) (by omega)).mark (by omega)
  induction he generalizing taken with
  | @none w w₁ ht =>
    obtain ⟨taken₁, ht₁, h₁⟩ := hpass w₁.memory w₁.lines (blocks.length + 1) (a :: blocks)
      (started.mark a) taken (Nat.le_refl _) hfree
    refine ⟨taken₁.clear a, ?_, ((leads_for h hmark ht).trans h₁).trans
      (leads_pass_end hend (Nat.le_refl _) (filter_skip blocks) hclear
        (.inr ⟨line, var, start, stop, step, h⟩))⟩
    exact ht₁.trans (taken₁.agreeBelow_clear (Nat.le_refl a)) (by omega) (Nat.le_refl a)
  | @last w w₁ w₂ w₃ shown ht once ht' =>
    obtain ⟨taken₁, ht₁, h₁⟩ := hbody w₁ shown w₂ once (a :: blocks) (started.mark a) taken hfree
    have hrun := ((leads_for h hmark ht).trans h₁).trans (leads_end_for_last hend h ht')
    simp only [List.nil_append, List.append_nil, hclear] at hrun
    exact ⟨taken₁, ht₁.trans (.refl _ a) (by omega) (Nat.le_refl a), hrun⟩
  | @again w w₁ w₂ w₃ w₄ shown more ht once ht' _ ih =>
    obtain ⟨taken₁, ht₁, h₁⟩ := hbody w₁ shown w₂ once (a :: blocks) (started.mark a) taken hfree
    obtain ⟨taken₂, ht₂, h₂⟩ := ih taken₁
    have hrun := (((leads_for h hmark ht).trans h₁).trans (leads_end_for_again hend h ht')).trans h₂
    simp only [List.nil_append, List.append_nil] at hrun
    exact ⟨taken₂, ht₁.trans ht₂ (by omega) (Nat.le_refl a), hrun⟩

theorem realizes_for {l : Nat} {var : String} {start stop step : Expr}
    (h : p.statements[a]? = some ⟨line, .forLoop var start stop step⟩) (hab : a < b)
    (hbody : Realizes p selection (a + 1) b e) (hpass : Passes p selection (a + 1) b)
    (hend : p.statements[b]? = some ⟨l, .endMark⟩) :
    Realizes p selection a (b + 1) (fun w shown w' => Effect.ForRuns var stop step e
      ((w.eval start).2.set var (.number (w.eval start).1.toNumber)) shown w') := by
  intro w shown w' he blocks started taken hf
  obtain ⟨taken', ht, hl⟩ := leads_for_loop taken h hab hbody hpass hend hf he
  exact ⟨taken', ht, hl.of_step_eq (step_for_first w h (hf a (by omega) (by omega)))⟩

theorem realizes_block (t : Block) (h : Code p a t.commands) (hb : b = a + t.commands.length) :
    Realizes p selection a b t.Runs := by
  induction t generalizing a b with
  | empty =>
    rw [hb]
    exact realizes_nothing p selection a
  | sequence first second ih₁ ih₂ =>
    have hlen : b = a + first.commands.length + second.commands.length := by
      rw [hb, Block.commands, List.length_append, Nat.add_assoc]
    exact (ih₁ h.left rfl).followedBy (ih₂ h.right hlen) (by omega) (by omega)
  | simple c =>
    obtain ⟨line, hs⟩ := h.statement
    rw [hb]
    exact realizes_simple hs
  | guarded cond c =>
    obtain ⟨line, hif⟩ := h.statement
    obtain ⟨line', hs⟩ := h.tail.statement
    rw [hb]
    exact realizes_guarded hif hs
  | branch cond yes ih =>
    obtain ⟨line, hif⟩ := h.statement
    obtain ⟨l, l', hthen, hyes, hend⟩ := h.tail.bracket
    have hlen : b = a + 2 + yes.commands.length + 1 := by rw [hb, Block.length_branch]; omega
    rw [hlen]
    exact realizes_branch hif hthen (by omega) (ih hyes rfl) (passes_block yes hyes rfl) hend
  | branchElse cond yes no ih₁ ih₂ =>
    obtain ⟨line, hif⟩ := h.statement
    obtain ⟨l, l', l'', hthen, hyes, helse, hno, hend⟩ := h.tail.brackets
    have hlen : b = a + 2 + yes.commands.length + 1 + no.commands.length + 1 := by
      rw [hb, Block.length_branchElse]
      omega
    rw [hlen]
    exact realizes_branchElse hif hthen (by omega) (ih₁ hyes rfl) (passes_block yes hyes rfl) helse
      (by omega) (ih₂ hno rfl) (passes_block no hno rfl) hend
  | whileLoop cond body ih =>
    obtain ⟨l, l', hhead, hbody, hend⟩ := h.bracket
    have hlen : b = a + 1 + body.commands.length + 1 := by rw [hb, Block.length_whileLoop]; omega
    rw [hlen]
    exact realizes_while hhead (by omega) (ih hbody rfl) (passes_block body hbody rfl) hend
  | repeatLoop cond body ih =>
    obtain ⟨l, l', hhead, hbody, hend⟩ := h.bracket
    have hlen : b = a + 1 + body.commands.length + 1 := by rw [hb, Block.length_repeatLoop]; omega
    rw [hlen]
    exact realizes_repeat hhead (ih hbody rfl) hend
  | forLoop var start stop step body ih =>
    obtain ⟨l, l', hhead, hbody, hend⟩ := h.bracket
    have hlen : b = a + 1 + body.commands.length + 1 := by rw [hb, Block.length_forLoop]; omega
    rw [hlen]
    exact realizes_for hhead (by omega) (ih hbody rfl) (passes_block body hbody rfl) hend

/-- A program that lists the statements of a block, played from a fresh state with any memory and any
lines of input, shows what a terminating run of the block shows, ends with its memory and the lines
it leaves, and halts without a fault. -/
theorem play_of_runs (t : Block) (p : Program) (hp : p.statements.map (·.command) = t.commands)
    (selection : Int) (m m' : Memory) (lines lines' : List String) (shown : List Signal)
    (h : t.Runs ⟨m, lines⟩ shown ⟨m', lines'⟩) :
    ∃ n s, play p selection n { memory := m } lines = some ⟨none, s, lines', shown⟩ ∧
      s.memory = m' := by
  have hcode : Code p 0 t.commands := ⟨[], [], by rw [hp]; simp, rfl⟩
  have hlen : 0 + t.commands.length = p.statements.length := by
    rw [← hp, List.length_map, Nat.zero_add]
  obtain ⟨taken', -, hl⟩ :=
    realizes_block t hcode rfl ⟨m, lines⟩ shown ⟨m', lines'⟩ h [] {} {} (fun _ _ _ => rfl)
  have hnone : p.statements[0 + t.commands.length]? = none := by
    rw [hlen]
    exact List.getElem?_eq_none (Nat.le_refl _)
  have hhalt : (Place.state ⟨0 + t.commands.length, [], none, {}, taken'⟩ m').step p selection =
      ⟨Place.state ⟨0 + t.commands.length, [], none, {}, taken'⟩ m', .halted none, []⟩ := by
    simp only [State.step, Place.state, hnone]
  obtain ⟨n, hn⟩ := hl.ending hhalt
  exact ⟨n, _, hn, rfl⟩

end Realizing

/-- Asks for a text in a loop that runs once, and then loops as long as it is the expected one. -/
def greeting : Block :=
  .sequence
    (.forLoop "I" (.number 1 1) (.number 1 1) (.number 1 1) (.simple (.input none "A")))
    (.whileLoop (.binary 1 .eq (.name 1 "A") (.text 1 "hi"))
      (.branchElse (.name 1 "A") (.simple (.compute (.assign 1 (.text 1 "no") 1 "A")))
        (.simple .clearHome)))

theorem greeting_runs : ∃ m', greeting.Runs ⟨.initial ⟨fun _ => 0, 0⟩, ["\"hi\""]⟩
    [.display (.string "?")] ⟨m', []⟩ ∧ m'.vars.get? "A" = some (.string "no") := by
  let m₁ := (Memory.initial ⟨fun _ => 0, 0⟩).set "I" (.number 1)
  let m₂ := m₁.set "A" (.string "hi")
  let m₃ := m₂.set "I" (.number (1 + 1))
  let m₄ := (m₃.set "A" (.string "no")).set "Ans" (.string "no")
  have htest : World.inside ⟨m₁, ["\"hi\""]⟩ "I" (.number 1 1) (.number 1 1) =
      (true, ⟨m₁, ["\"hi\""]⟩) := Prod.ext (by decide) rfl
  have hretest : World.inside ⟨m₂, []⟩ "I" (.number 1 1) (.number 1 1) = (true, ⟨m₂, []⟩) :=
    Prod.ext (by decide) rfl
  have hlast : World.inside ⟨m₃, []⟩ "I" (.number 1 1) (.number 1 1) = (false, ⟨m₃, []⟩) :=
    Prod.ext (by decide) rfl
  have hwhile : World.test ⟨m₃, []⟩ (.binary 1 .eq (.name 1 "A") (.text 1 "hi")) =
      (true, ⟨m₃, []⟩) := Prod.ext (by decide) rfl
  have hif : World.test ⟨m₃, []⟩ (.name 1 "A") = (true, ⟨m₃, []⟩) := Prod.ext (by decide) rfl
  have hstop : World.test ⟨m₄, []⟩ (.binary 1 .eq (.name 1 "A") (.text 1 "hi")) =
      (false, ⟨m₄, []⟩) := Prod.ext (by decide) rfl
  have hask : (Simple.input none "A").Runs ⟨m₁, ["\"hi\""]⟩ [.display (.string "?")] ⟨m₂, []⟩ := rfl
  have hset : (Simple.compute (.assign 1 (.text 1 "no") 1 "A")).Runs ⟨m₃, []⟩ [] ⟨m₄, []⟩ := rfl
  have hbranch : Effect.choose (.name 1 "A")
      (Simple.compute (.assign 1 (.text 1 "no") 1 "A")).Runs Simple.clearHome.Runs
      ⟨m₃, []⟩ [] ⟨m₄, []⟩ := ⟨_, .inl ⟨hif, hset⟩⟩
  exact ⟨m₄, ⟨_, _, _, Effect.ForRuns.again htest hask hretest (.none hlast),
    Effect.WhileRuns.again hwhile hbranch (.stop hstop), rfl⟩, rfl⟩

theorem play_of_runs_greeting : ∃ n s,
    play ⟨greeting.commands.map (⟨1, ·⟩), []⟩ 0 n { memory := .initial ⟨fun _ => 0, 0⟩ } ["\"hi\""] =
      some ⟨none, s, [], [.display (.string "?")]⟩ ∧
    s.memory.vars.get? "A" = some (.string "no") := by
  obtain ⟨m', hrun, hA⟩ := greeting_runs
  obtain ⟨n, s, hplay, hs⟩ := play_of_runs greeting ⟨greeting.commands.map (⟨1, ·⟩), []⟩ rfl 0 _ m'
    _ _ _ hrun
  exact ⟨n, s, hplay, by rw [hs, hA]⟩

end PocketBasic
