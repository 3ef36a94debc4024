import PocketBasic.Proofs.Evaluation.Acts

/-!
# What an evaluation does to the variables

The last assignment to a name decides what it is bound to. A name that is read while it is unset, and not
assigned, is bound to zero. All other names are left as they are, and no binding is ever lost.
-/

namespace PocketBasic

/-- What a name is bound to at some point of an evaluation. -/
def Scratch.binding (w : Scratch) (name : String) : Option Value := w.memory.vars.get? name

def Expr.Assigns (x : Expr) (name : String) : Prop := .bind name ∈ x.acts

/-- Where an evaluation in the memory reads the name for the first time, the name is unset. -/
def Expr.FindsUnset (x : Expr) (m : Memory) (name : String) : Prop :=
  ∃ before after, x.acts = before ++ .read name :: after ∧ .read name ∉ before ∧
    (Act.performAll ⟨[], m⟩ before).binding name = none

section Acts

variable {w : Scratch} {name : String} {a : Act} {acts : List Act} {v : Value}

theorem vars_call (f : Value) (args : List Value) (m : Memory) : (f.call args m).2.vars = m.vars := by
  cases f with
  | function f =>
    simp only [Value.call, Builtin.call]
    cases f.unary? <;> rfl
  | _ => rfl

theorem get?_lookup (m : Memory) {other : String} (h : m.vars.get? name ≠ none ∨ other ≠ name) :
    (m.lookup other).2.vars.get? name = m.vars.get? name := by
  unfold Memory.lookup
  split
  · rfl
  · split
    · rfl
    · next hunset =>
      have hne : ¬ name = other := by
        rintro rfl
        exact h.elim (fun h => h hunset) (fun h => h rfl)
      exact (Variables.get?_set ..).trans (if_neg hne)

/-- Only an assignment, and a reading that finds the name unset, can change what a name is bound to. -/
theorem binding_perform (hbind : a ≠ .bind name)
    (hread : w.binding name ≠ none ∨ a ≠ .read name ∨ name = Memory.keyName) :
    (a.perform w).binding name = w.binding name := by
  obtain ⟨values, m⟩ := w
  cases a with
  | literal v => rfl
  | read other =>
    by_cases hkey : other = Memory.keyName
    · simp only [Act.perform, Memory.lookup, if_pos hkey]
      rfl
    · refine get?_lookup m (hread.imp_right fun h he => ?_)
      subst he
      exact h.elim (fun h => h rfl) hkey
  | combine op =>
    cases values with
    | nil => rfl
    | cons b rest => cases rest <;> rfl
  | bind target =>
    have hne : ¬ name = target := fun h => hbind (by rw [h])
    cases values with
    | nil => rfl
    | cons v rest => exact (Variables.get?_set ..).trans (if_neg hne)
  | call arity =>
    simp only [Act.perform]
    cases values.drop arity with
    | nil => rfl
    | cons f rest => exact congrArg (Variables.get? · name) (vars_call f _ m)

theorem binding_performAll_of_bound (hbind : .bind name ∉ acts) (h : w.binding name = some v) :
    (Act.performAll w acts).binding name = some v := by
  induction acts generalizing w with
  | nil => exact h
  | cons a acts ih =>
    rw [List.mem_cons, not_or] at hbind
    have hbound : w.binding name ≠ none := by simp [h]
    exact ih hbind.2 ((binding_perform (Ne.symm hbind.1) (.inl hbound)).trans h)

/-- A name that is neither assigned nor read stays as it is, and so does that of the key register. -/
theorem binding_performAll_of_unread (hbind : .bind name ∉ acts)
    (hread : .read name ∉ acts ∨ name = Memory.keyName) :
    (Act.performAll w acts).binding name = w.binding name := by
  induction acts generalizing w with
  | nil => rfl
  | cons a acts ih =>
    rw [List.mem_cons, not_or] at hbind
    rw [List.mem_cons, not_or] at hread
    have hrest := ih (w := a.perform w) hbind.2 (hread.imp_left And.right)
    exact hrest.trans (binding_perform (Ne.symm hbind.1) (.inr (hread.imp_left fun h => Ne.symm h.1)))

theorem binding_read_of_unset (hkey : name ≠ Memory.keyName) (h : w.binding name = none) :
    ((Act.read name).perform w).binding name = some (.number 0) := by
  have hunset : w.memory.vars.get? name = none := h
  simp only [Act.perform, Memory.lookup, if_neg hkey, hunset]
  exact (Variables.get?_set ..).trans (if_pos rfl)

theorem binding_bind (name : String) (v : Value) (values : List Value) (m : Memory) :
    ((Act.bind name).perform ⟨v :: values, m⟩).binding name = some v :=
  (Variables.get?_set ..).trans (if_pos rfl)

theorem binding_perform_ne_none (a : Act) (h : w.binding name ≠ none) :
    (a.perform w).binding name ≠ none := by
  by_cases hbind : a = .bind name
  · subst hbind
    obtain ⟨values, m⟩ := w
    cases values with
    | nil => exact h
    | cons v values => simp [binding_bind]
  · rwa [binding_perform hbind (.inl h)]

theorem binding_performAll_ne_none (acts : List Act) (h : w.binding name ≠ none) :
    (Act.performAll w acts).binding name ≠ none := by
  induction acts generalizing w with
  | nil => exact h
  | cons a acts ih => exact ih (binding_perform_ne_none a h)

end Acts

section Assignments

/-- Every assignment stands behind the acts of an expression, whose value it binds. -/
def Act.Prepared (acts : List Act) : Prop :=
  ∀ before target after, acts = before ++ .bind target :: after →
    ∃ start value, before = start ++ Expr.acts value

variable {xs ys : List Act}

theorem prepared_singleton {a : Act} (h : ∀ target, a ≠ .bind target) : Act.Prepared [a] := by
  intro before target after heq
  have hmem : .bind target ∈ [a] := heq ▸ List.mem_append_right before List.mem_cons_self
  exact absurd (List.mem_singleton.mp hmem).symm (h target)

theorem Act.Prepared.append (hx : Prepared xs) (hy : Prepared ys) : Prepared (xs ++ ys) := by
  intro before target after heq
  rcases List.append_eq_append_iff.mp heq with ⟨mid, rfl, hmid⟩ | ⟨mid, hxs, hmid⟩
  · obtain ⟨start, value, rfl⟩ := hy mid target after hmid
    exact ⟨xs ++ start, value, (List.append_assoc ..).symm⟩
  · cases mid with
    | nil =>
      -- The assignment is the first act of the second list, so nothing stands before it there.
      obtain ⟨start, value, hnil⟩ := hy [] target after hmid.symm
      obtain ⟨rfl, hvalue⟩ := List.append_eq_nil_iff.mp hnil.symm
      exact ⟨before, value, by rw [hvalue, List.append_nil]⟩
    | cons b mid =>
      rw [List.cons_append, List.cons.injEq] at hmid
      obtain ⟨rfl, -⟩ := hmid
      exact hx before target mid hxs

theorem Act.Prepared.assign {value : Expr} (h : Prepared value.acts) (target : String) :
    Prepared (value.acts ++ [.bind target]) := by
  intro before target' after heq
  rcases List.append_eq_append_iff.mp heq with ⟨mid, rfl, hmid⟩ | ⟨mid, hxs, hmid⟩
  · have hlength := congrArg List.length hmid
    simp only [List.length_append, List.length_cons, List.length_nil] at hlength
    obtain rfl := List.length_eq_zero_iff.mp (by omega : mid.length = 0)
    exact ⟨[], value, by rw [List.append_nil, List.nil_append]⟩
  · cases mid with
    | nil => exact ⟨[], value, by rw [hxs, List.append_nil, List.nil_append]⟩
    | cons b mid =>
      rw [List.cons_append, List.cons.injEq] at hmid
      obtain ⟨rfl, -⟩ := hmid
      exact h before target' mid hxs

mutual

theorem prepared_acts : (x : Expr) → Act.Prepared x.acts
  | .number _ _ | .text _ _ | .name _ _ => prepared_singleton nofun
  | .binary _ _ left right =>
    ((prepared_acts left).append (prepared_acts right)).append (prepared_singleton nofun)
  | .assign _ value _ target => (prepared_acts value).assign target
  | .call _ function args =>
    ((prepared_acts function).append (prepared_actsList args)).append (prepared_singleton nofun)

theorem prepared_actsList : (xs : List Expr) → Act.Prepared (Expr.actsList xs)
  | [] => fun before _ _ heq => by simp [Expr.actsList] at heq
  | x :: xs => (prepared_acts x).append (prepared_actsList xs)

end

theorem exists_last_of_mem {a : Act} (h : a ∈ xs) :
    ∃ before after, xs = before ++ a :: after ∧ a ∉ after := by
  obtain ⟨after, before, heq, hnot⟩ := List.eq_append_cons_of_mem (List.mem_reverse.mpr h)
  refine ⟨before.reverse, after.reverse, ?_, by rwa [List.mem_reverse]⟩
  rw [← List.reverse_reverse xs, heq, List.reverse_append, List.reverse_cons, List.append_assoc,
    List.singleton_append]

end Assignments

/-- What evaluating an expression in a memory does to the binding of a name. -/
structure Expr.Frame (x : Expr) (m : Memory) (name : String) : Prop where
  /-- The value of the last assignment is the value that its expression has at that point. -/
  assigned : x.Assigns name → ∃ (before : List Act) (value : Expr) (after : List Act),
    x.acts = before ++ value.acts ++ .bind name :: after ∧ .bind name ∉ after ∧
      (x.eval m).2.vars.get? name = some (value.eval (Act.performAll ⟨[], m⟩ before).memory).1
  zeroed : ¬ x.Assigns name → name ≠ Memory.keyName → x.FindsUnset m name →
    (x.eval m).2.vars.get? name = some (.number 0)
  kept : ¬ x.Assigns name → name = Memory.keyName ∨ ¬ x.FindsUnset m name →
    (x.eval m).2.vars.get? name = m.vars.get? name
  bound : m.vars.get? name ≠ none → ∀ before after, x.acts = before ++ after →
    (Act.performAll ⟨[], m⟩ before).memory.vars.get? name ≠ none

/-- An evaluation binds the names that it assigns and those that it finds unset, and it leaves all other
names alone. -/
theorem frame_eval (x : Expr) (m : Memory) (name : String) : x.Frame m name := by
  have hresult : (x.eval m).2.vars.get? name = (Act.performAll ⟨[], m⟩ x.acts).binding name := by
    rw [perform_acts]
    rfl
  refine ⟨fun hassigns => ?_, fun hassigns hkey hunset => ?_, fun hassigns hkept => ?_,
    fun hbound before after _ => binding_performAll_ne_none before hbound⟩
  · obtain ⟨start, after, hacts, hlast⟩ := exists_last_of_mem hassigns
    obtain ⟨before, value, rfl⟩ := prepared_acts x start name after hacts
    refine ⟨before, value, after, hacts, hlast, ?_⟩
    rw [hresult, hacts, Act.performAll_append, Act.performAll_append, perform_acts, Act.performAll_cons]
    exact binding_performAll_of_bound hlast (binding_bind name _ _ _)
  · obtain ⟨before, after, hacts, -, hnone⟩ := hunset
    have hlast : .bind name ∉ after := fun h => hassigns (by
      rw [Expr.Assigns, hacts]
      exact List.mem_append_right before (List.mem_cons_of_mem _ h))
    rw [hresult, hacts, Act.performAll_append, Act.performAll_cons]
    exact binding_performAll_of_bound hlast (binding_read_of_unset hkey hnone)
  · rw [hresult]
    by_cases hread : .read name ∈ x.acts
    · rcases hkept with hkey | hset
      · exact binding_performAll_of_unread hassigns (.inr hkey)
      · -- The name was set where it was read first, hence from the start.
        obtain ⟨before, after, hacts, hfirst⟩ := List.eq_append_cons_of_mem hread
        have hbefore : .bind name ∉ before := fun h => hassigns (by
          rw [Expr.Assigns, hacts]
          exact List.mem_append_left _ h)
        have hsame := binding_performAll_of_unread (w := ⟨[], m⟩) hbefore (.inl hfirst)
        cases hvalue : m.vars.get? name with
        | none => exact absurd ⟨before, after, hacts, hfirst, hsame.trans hvalue⟩ hset
        | some v => exact binding_performAll_of_bound hassigns hvalue
    · exact binding_performAll_of_unread hassigns (.inl hread)

end PocketBasic
