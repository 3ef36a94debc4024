import PocketBasic.Proofs.Block.Basic
import PocketBasic.Proofs.Block.Place
import PocketBasic.Proofs.Block.Play

/-!
# What running one statement does

For every statement of a nested program, the place and the memory after the step that runs it, in terms
of the world of the nested meaning. A simple statement, which may take several steps, is run as a whole.
-/

namespace PocketBasic

section Running

variable {p : Program} {selection : Int} {a line : Nat} {blocks : List Nat} {started taken : Marks}

/-- A step that asks for a variable is answered as the meaning answers it. -/
theorem leads_ask {s s₁ : State} {question name : String} {w w' : World} {shown : List Signal}
    (hs : s.step p selection = s₁.ask question name) (hm : s₁.memory = w.memory)
    (ha : s₁.awaiting = none) (he : w.ask question name = some (shown, w')) :
    Leads p selection s w.lines shown { s₁ with memory := w'.memory } w'.lines := by
  cases hl : w.lines with
  | nil => simp [World.ask, hl] at he
  | cons answer rest =>
    have hw : (shown, w') = ([.display (.string question)],
        ⟨w.memory.set name (.ofInput answer), rest⟩) := by
      simpa [World.ask, hl, eq_comm] using he
    cases hw
    refine Leads.answered hs ?_
    simp only [State.setInput, hm, ha]

theorem step_prompt {vars : List String} (h : p.statements[a]? = some ⟨line, .prompt vars⟩)
    (done : List String) (name : String) (names : List String) (hv : vars = done ++ name :: names)
    (m : Memory) :
    State.step { Place.state ⟨a, blocks, none, started, taken⟩ m with promptIndex := done.length }
      p selection =
    State.ask (if names = [] then Place.state ⟨a + 1, blocks, none, started, taken⟩ m
      else { Place.state ⟨a, blocks, none, started, taken⟩ m with promptIndex := done.length + 1 })
      (name ++ "=?") name := by
  have hname : vars[done.length]? = some name := by
    rw [hv, List.getElem?_append_right (Nat.le_refl _), Nat.sub_self]
    rfl
  have hlength : vars.length = done.length + 1 + names.length := by
    rw [hv, List.length_append, List.length_cons]
    omega
  simp only [State.step, Place.state, h, State.skipping, State.run, State.runPrompt, hname, hlength]
  cases names <;> simp

theorem askAll_cons {w w' : World} {name : String} {names : List String} {shown : List Signal}
    (h : w.askAll (name :: names) = some (shown, w')) :
    ∃ first w₁ more, w.ask (name ++ "=?") name = some (first, w₁) ∧
      w₁.askAll names = some (more, w') ∧ shown = first ++ more := by
  cases ha : w.ask (name ++ "=?") name with
  | none => simp [World.askAll, ha] at h
  | some r =>
    obtain ⟨first, w₁⟩ := r
    cases hb : w₁.askAll names with
    | none => simp [World.askAll, ha, hb] at h
    | some r' =>
      obtain ⟨more, w₂⟩ := r'
      simp only [World.askAll, ha, hb, Option.bind_eq_bind, Option.bind_some, Option.some.injEq,
        Prod.mk.injEq] at h
      obtain ⟨rfl, rfl⟩ := h
      exact ⟨first, w₁, more, rfl, hb, rfl⟩

/-- The rest of a Prompt, of which the variables `done` have been asked for. -/
theorem leads_prompt {vars : List String} (h : p.statements[a]? = some ⟨line, .prompt vars⟩)
    (done : List String) (name : String) (names : List String) (hv : vars = done ++ name :: names)
    (w w' : World) (shown : List Signal) (he : w.askAll (name :: names) = some (shown, w')) :
    Leads p selection
      { Place.state ⟨a, blocks, none, started, taken⟩ w.memory with promptIndex := done.length }
      w.lines shown (Place.state ⟨a + 1, blocks, none, started, taken⟩ w'.memory) w'.lines := by
  induction names generalizing done name w shown with
  | nil =>
    obtain ⟨first, w₁, more, ha, hb, rfl⟩ := askAll_cons he
    cases hb
    rw [List.append_nil]
    exact leads_ask (step_prompt h done name [] hv w.memory) rfl rfl ha
  | cons next names ih =>
    obtain ⟨first, w₁, more, ha, hb, rfl⟩ := askAll_cons he
    have hrest := ih (done ++ [name]) next (by rw [hv, List.append_assoc]; rfl) w₁ more hb
    rw [List.length_append] at hrest
    exact (leads_ask (step_prompt h done name (next :: names) hv w.memory) rfl rfl ha).trans hrest

theorem leads_simple {c : Simple} (h : p.statements[a]? = some ⟨line, c.command⟩) (w w' : World)
    (shown : List Signal) (he : c.exec w = some (shown, w')) :
    Leads p selection (Place.state ⟨a, blocks, none, started, taken⟩ w.memory) w.lines shown
      (Place.state ⟨a + 1, blocks, none, started, taken⟩ w'.memory) w'.lines := by
  cases c with
  | compute x =>
    cases he
    apply Leads.running
    rw [Place.step_run h]
    rfl
  | label name =>
    cases he
    apply Leads.running
    rw [Place.step_run h]
    rfl
  | disp args =>
    cases he
    apply Leads.running
    rw [Place.step_run h]
    rfl
  | output row col value =>
    cases he
    apply Leads.running
    rw [Place.step_run h]
    rfl
  | clearHome =>
    cases he
    apply Leads.running
    rw [Place.step_run h]
    rfl
  | pause value =>
    cases value with
    | none =>
      cases he
      apply Leads.paused
      rw [Place.step_run h]
      rfl
    | some x =>
      cases he
      apply Leads.paused
      rw [Place.step_run h]
      rfl
  | input question var =>
    cases question with
    | none =>
      have hs : (Place.state ⟨a, blocks, none, started, taken⟩ w.memory).step p selection =
          (Place.state ⟨a + 1, blocks, none, started, taken⟩ w.memory).ask "?" var := by
        rw [Place.step_run h]
        rfl
      exact leads_ask hs rfl rfl he
    | some x =>
      have hs : (Place.state ⟨a, blocks, none, started, taken⟩ w.memory).step p selection =
          (Place.state ⟨a + 1, blocks, none, started, taken⟩ (w.eval x).2.memory).ask
            (w.eval x).1.text var := by
        rw [Place.step_run h]
        rfl
      have ha : (w.eval x).2.ask (w.eval x).1.text var = some (shown, w') := he
      have hl := leads_ask hs rfl rfl ha
      exact hl
  | prompt first others => exact leads_prompt h [] first others rfl w w' shown he

/-- The skip height that a test with the given result sets behind an opener. -/
def skipUnless (b : Bool) (blocks : List Nat) : Option Nat :=
  if b then none else some (blocks.length + 1)

theorem startSkipUnless_state (b : Bool) (i : Nat) (m : Memory) :
    (Place.state ⟨a, i :: blocks, none, started, taken⟩ m).startSkipUnless b =
      Place.state ⟨a, i :: blocks, skipUnless b blocks, started, taken⟩ m := by
  cases b <;> rfl

theorem next_startSkipUnless_state (b : Bool) (i : Nat) (m : Memory) :
    ((Place.state ⟨a, i :: blocks, none, started, taken⟩ m).startSkipUnless b).next =
      Place.state ⟨a + 1, i :: blocks, skipUnless b blocks, started, taken⟩ m := by
  cases b <;> rfl

theorem leads_if {l : Nat} {cond : Expr} {b : Bool} {w w₁ : World}
    (h : p.statements[a]? = some ⟨line, .ifTest cond⟩)
    (hthen : p.statements[a + 1]? = some ⟨l, .thenMark⟩) (ht : w.test cond = (b, w₁)) :
    Leads p selection (Place.state ⟨a, blocks, none, started, taken⟩ w.memory) w.lines []
      (Place.state ⟨a + 2, a :: blocks, skipUnless b blocks, started, taken.put a b⟩ w₁.memory)
      w₁.lines := by
  cases ht
  apply Leads.running
  rw [Place.step_run h, ← startSkipUnless_state]
  simp only [State.run, State.runIf, State.eval, Place.state, hthen]
  rfl

theorem leads_guard {l : Nat} {cond : Expr} {c : Simple} {b : Bool} {w w₁ : World}
    (h : p.statements[a]? = some ⟨line, .ifTest cond⟩)
    (hc : p.statements[a + 1]? = some ⟨l, c.command⟩) (ht : w.test cond = (b, w₁)) :
    Leads p selection (Place.state ⟨a, blocks, none, started, taken⟩ w.memory) w.lines []
      (Place.state ⟨if b then a + 1 else a + 2, blocks, none, started, taken⟩ w₁.memory)
      w₁.lines := by
  cases ht
  apply Leads.running
  rw [Place.step_run h]
  simp only [State.run, State.runIf, State.eval, Place.state, hc]
  cases c <;> rfl

theorem leads_else {i : Nat} {m : Memory} {lines : List String}
    (h : p.statements[a]? = some ⟨line, .elseMark⟩) (hi : taken.has i = true) :
    Leads p selection (Place.state ⟨a, i :: blocks, none, started, taken⟩ m) lines []
      (Place.state ⟨a + 1, a :: blocks, some (blocks.length + 1), started, taken.clear i⟩ m)
      lines := by
  apply Leads.running
  rw [Place.step_run h]
  simp only [State.run, State.runElse, Place.state, List.headD_cons, hi]
  rfl

theorem leads_end_branch {i l : Nat} {m : Memory} {lines : List String}
    (h : p.statements[a]? = some ⟨line, .endMark⟩)
    (hi : (∃ cond, p.statements[i]? = some ⟨l, .ifTest cond⟩) ∨
      p.statements[i]? = some ⟨l, .elseMark⟩) :
    Leads p selection (Place.state ⟨a, i :: blocks, none, started, taken⟩ m) lines []
      (Place.state ⟨a + 1, blocks, none, started, taken.clear i⟩ m) lines := by
  apply Leads.running
  rw [Place.step_run h]
  rcases hi with ⟨cond, hi⟩ | hi
  · simp only [State.run, State.runEnd, Place.state, hi]
    rfl
  · simp only [State.run, State.runEnd, Place.state, hi]
    rfl

theorem leads_while {cond : Expr} {b : Bool} {w w₁ : World}
    (h : p.statements[a]? = some ⟨line, .whileLoop cond⟩) (ht : w.test cond = (b, w₁)) :
    Leads p selection (Place.state ⟨a, blocks, none, started, taken⟩ w.memory) w.lines []
      (Place.state ⟨a + 1, a :: blocks, skipUnless b blocks, started, taken⟩ w₁.memory)
      w₁.lines := by
  cases ht
  apply Leads.running
  rw [Place.step_run h, ← next_startSkipUnless_state]
  rfl

theorem leads_end_while {i l : Nat} {m : Memory} {lines : List String} {cond : Expr}
    (h : p.statements[a]? = some ⟨line, .endMark⟩)
    (hi : p.statements[i]? = some ⟨l, .whileLoop cond⟩) :
    Leads p selection (Place.state ⟨a, i :: blocks, none, started, taken⟩ m) lines []
      (Place.state ⟨i, blocks, none, started, taken⟩ m) lines := by
  apply Leads.running
  rw [Place.step_run h]
  simp only [State.run, State.runEnd, Place.state, hi]
  rfl

theorem leads_repeat {m : Memory} {lines : List String} {cond : Expr}
    (h : p.statements[a]? = some ⟨line, .repeatLoop cond⟩) :
    Leads p selection (Place.state ⟨a, blocks, none, started, taken⟩ m) lines []
      (Place.state ⟨a + 1, a :: blocks, none, started, taken⟩ m) lines := by
  apply Leads.running
  rw [Place.step_run h]
  rfl

theorem leads_end_repeat {i l : Nat} {cond : Expr} {b : Bool} {w w₁ : World}
    (h : p.statements[a]? = some ⟨line, .endMark⟩)
    (hi : p.statements[i]? = some ⟨l, .repeatLoop cond⟩) (ht : w.test cond = (b, w₁)) :
    Leads p selection (Place.state ⟨a, i :: blocks, none, started, taken⟩ w.memory) w.lines []
      (Place.state ⟨if b then a + 1 else i, blocks, none, started, taken⟩ w₁.memory) w₁.lines := by
  have hrun : (Place.state ⟨a, i :: blocks, none, started, taken⟩ w.memory).runEnd p line =
      .ok (if (w.test cond).1 then Place.state ⟨a + 1, blocks, none, started, taken⟩ (w.test cond).2.memory
        else Place.state ⟨i, blocks, none, started, taken⟩ (w.test cond).2.memory) := by
    simp only [State.runEnd, Place.state, hi]
    rfl
  rw [ht] at hrun
  rw [World.lines_of_test ht]
  apply Leads.running
  rw [Place.step_run h, State.run, hrun]
  cases b <;> rfl

/-- The header of a For loop that has been started tests the variable. -/
theorem leads_for {var : String} {start stop step : Expr} {b : Bool} {w w₁ : World}
    (h : p.statements[a]? = some ⟨line, .forLoop var start stop step⟩) (hs : started.has a = true)
    (ht : w.inside var stop step = (b, w₁)) :
    Leads p selection (Place.state ⟨a, blocks, none, started, taken⟩ w.memory) w.lines []
      (Place.state ⟨a + 1, a :: blocks, skipUnless b blocks, started, taken⟩ w₁.memory)
      w₁.lines := by
  have hb : (w.inside var stop step).1 = b := congrArg Prod.fst ht
  have hw : (w.inside var stop step).2 = w₁ := congrArg Prod.snd ht
  subst hb hw
  apply Leads.running
  rw [Place.step_run h, ← next_startSkipUnless_state]
  simp only [State.run, State.runFor, Place.state, hs, if_true]
  rfl

/-- The header of a For loop that has not been started sets the variable and then does the same. -/
theorem step_for_first {var : String} {start stop step : Expr} (w : World)
    (h : p.statements[a]? = some ⟨line, .forLoop var start stop step⟩) (hs : started.has a = false) :
    (Place.state ⟨a, blocks, none, started, taken⟩ w.memory).step p selection =
      (Place.state ⟨a, blocks, none, started.mark a, taken⟩
        ((w.eval start).2.set var (.number (w.eval start).1.toNumber)).memory).step p selection := by
  have hm : (started.mark a).has a = true := by simp [Marks.has_mark]
  rw [Place.step_run h, Place.step_run h]
  simp only [State.run, State.runFor, Place.state, hs, hm, if_true]
  rfl

theorem runEnd_for {i l : Nat} {var : String} {start stop step : Expr} (w : World)
    (hi : p.statements[i]? = some ⟨l, .forLoop var start stop step⟩) :
    (Place.state ⟨a, i :: blocks, none, started, taken⟩ w.memory).runEnd p line =
      if (w.inside var stop step).1 then
        .ok (Place.state ⟨i, blocks, none, started, taken⟩
          ((w.inside var stop step).2.advance var step).memory)
      else .ok (Place.state ⟨a + 1, blocks, none, started.clear i, taken⟩
        (w.inside var stop step).2.memory) := by
  simp only [State.runEnd, Place.state, hi]
  rfl

theorem leads_end_for_last {i l : Nat} {var : String} {start stop step : Expr} {w w₁ : World}
    (h : p.statements[a]? = some ⟨line, .endMark⟩)
    (hi : p.statements[i]? = some ⟨l, .forLoop var start stop step⟩)
    (ht : w.inside var stop step = (false, w₁)) :
    Leads p selection (Place.state ⟨a, i :: blocks, none, started, taken⟩ w.memory) w.lines []
      (Place.state ⟨a + 1, blocks, none, started.clear i, taken⟩ w₁.memory) w₁.lines := by
  rw [World.lines_of_inside ht]
  apply Leads.running
  rw [Place.step_run h, State.run, runEnd_for w hi, ht]
  rfl

theorem leads_end_for_again {i l : Nat} {var : String} {start stop step : Expr} {w w₁ : World}
    (h : p.statements[a]? = some ⟨line, .endMark⟩)
    (hi : p.statements[i]? = some ⟨l, .forLoop var start stop step⟩)
    (ht : w.inside var stop step = (true, w₁)) :
    Leads p selection (Place.state ⟨a, i :: blocks, none, started, taken⟩ w.memory) w.lines []
      (Place.state ⟨i, blocks, none, started, taken⟩ (w₁.advance var step).memory)
      (w₁.advance var step).lines := by
  have hw : (w₁.advance var step).lines = w.lines := by
    rw [← World.lines_of_inside ht]
    rfl
  rw [hw]
  apply Leads.running
  rw [Place.step_run h, State.run, runEnd_for w hi, ht]
  rfl

end Running

end PocketBasic
