import PocketBasic.Proofs.Program.Following
import PocketBasic.Proofs.Program.Indexed

/-!
# Reading with calls nested deeper

How deep calls may be nested only matters to a reader by position that does not come to an end: where one
does, it does the same with any deeper nesting.
-/

namespace PocketBasic.Indexed

/-- Where the first reader comes to an end, the second does the same. -/
def EndsAs {α : Type} (w w' : Indexed α) : Prop := ∀ i, w i = .error .unfinished ∨ w i = w' i

section Rules

variable {α β : Type} {w w' : Indexed α} {f f' : α → Indexed β}

theorem endsAs_refl (w : Indexed α) : EndsAs w w := fun _ => .inr rfl

theorem endsAs_unfinished (w : Indexed α) : EndsAs (throw .unfinished) w := fun _ => .inl rfl

theorem endsAs_bind (h : EndsAs w w') (hf : ∀ a, EndsAs (f a) (f' a)) : EndsAs (w >>= f) (w' >>= f') := by
  intro i
  obtain hw | hw := h i
  · exact .inl (bind_of_error hw)
  · cases hr : w i with
    | error x =>
      rw [bind_of_error hr, bind_of_error (hw.symm.trans hr)]
      exact .inr rfl
    | ok q =>
      obtain ⟨a, j⟩ := q
      rw [bind_of_ok hr, bind_of_ok (hw.symm.trans hr)]
      exact hf a j

theorem endsAs_later (w : Indexed α) (hf : ∀ a, EndsAs (f a) (f' a)) : EndsAs (w >>= f) (w >>= f') :=
  endsAs_bind (endsAs_refl w) hf

theorem endsAs_map (h : EndsAs w w') (g : α → β) : EndsAs (g <$> w) (g <$> w') :=
  endsAs_bind h fun a => endsAs_refl (pure (g a))

end Rules

/-- No level of an expression depends on how deep calls may be nested, once it comes to an end. -/
structure Deeper (tokens : List Token) (m m' : Nat) : Prop where
  expr : EndsAs (expr tokens m) (expr tokens m')
  sum : EndsAs (sum tokens m) (sum tokens m')
  sumFrom (left : Expr) : EndsAs (sumFrom tokens m left) (sumFrom tokens m' left)
  product : EndsAs (product tokens m) (product tokens m')
  productFrom (left : Expr) : EndsAs (productFrom tokens m left) (productFrom tokens m' left)
  comparison : EndsAs (comparison tokens m) (comparison tokens m')
  operand : EndsAs (operand tokens m) (operand tokens m')
  callsOf (x : Expr) : EndsAs (callsOf tokens m x) (callsOf tokens m' x)
  arguments : EndsAs (arguments tokens m) (arguments tokens m')
  items : EndsAs (items tokens m) (items tokens m')
  term : EndsAs (term tokens m) (term tokens m')

section Readers

variable {tokens : List Token} {m m' : Nat}

theorem deeper_zero (tokens : List Token) (m : Nat) : Deeper tokens 0 m where
  expr := endsAs_unfinished _
  sum := endsAs_unfinished _
  sumFrom _ := endsAs_unfinished _
  product := endsAs_unfinished _
  productFrom _ := endsAs_unfinished _
  comparison := endsAs_unfinished _
  operand := endsAs_unfinished _
  callsOf _ := endsAs_unfinished _
  arguments := endsAs_unfinished _
  items := endsAs_unfinished _
  term := endsAs_unfinished _

theorem Deeper.succ (h : Deeper tokens m m') : Deeper tokens (m + 1) (m' + 1) where
  expr := endsAs_bind h.sum fun _ => endsAs_later _ fun
    | none => endsAs_refl _
    | some (_, _) => endsAs_later _ fun _ => endsAs_bind h.expr fun _ => endsAs_refl _
  sum := endsAs_bind h.product fun left => h.sumFrom left
  sumFrom left := endsAs_later _ fun
    | none => endsAs_refl _
    | some (_, _) => endsAs_bind h.product fun _ => h.sumFrom _
  product := endsAs_bind h.comparison fun left => h.productFrom left
  productFrom left := endsAs_later _ fun
    | none => endsAs_refl _
    | some (_, _) => endsAs_bind h.comparison fun _ => h.productFrom _
  comparison := endsAs_bind h.operand fun _ => endsAs_later _ fun
    | none => endsAs_refl _
    | some (_, _) => endsAs_later _ fun _ => endsAs_bind h.operand fun _ => endsAs_refl _
  operand := endsAs_bind h.term fun x => h.callsOf x
  callsOf x := endsAs_later _ fun
    | none => endsAs_refl _
    | some (_, _) => endsAs_bind h.arguments fun _ => h.callsOf _
  arguments := endsAs_later _ fun
    | some _ => endsAs_refl _
    | none => endsAs_bind h.items fun _ => endsAs_refl _
  items := endsAs_bind h.expr fun _ => endsAs_later _ fun
    | none => endsAs_refl _
    | some _ => endsAs_bind h.items fun _ => endsAs_refl _
  term := by
    refine endsAs_later _ fun atEnd => ?_
    cases atEnd with
    | true => exact endsAs_refl _
    | false =>
      refine endsAs_later _ fun t => ?_
      obtain ⟨lexeme, l, col⟩ := t
      cases lexeme with
      | openParen => exact endsAs_later _ fun _ => endsAs_bind h.expr fun _ => endsAs_refl _
      | operator sign =>
        cases sign with
        | minus => exact endsAs_later _ fun _ => endsAs_bind h.operand fun _ => endsAs_refl _
        | _ => exact endsAs_refl _
      | _ => exact endsAs_refl _

theorem deeper (tokens : List Token) (hle : m ≤ m') : Deeper tokens m m' := by
  induction m generalizing m' with
  | zero => exact deeper_zero tokens m'
  | succ m ih =>
    obtain ⟨m', rfl⟩ : ∃ k, m' = k + 1 := Nat.exists_eq_add_one.mpr (Nat.zero_lt_of_lt hle)
    exact (ih (Nat.le_of_succ_le_succ hle)).succ

theorem endsAs_names (hle : m ≤ m') : EndsAs (names tokens m) (names tokens m') := by
  induction m generalizing m' with
  | zero => exact endsAs_unfinished _
  | succ m ih =>
    obtain ⟨m', rfl⟩ : ∃ k, m' = k + 1 := Nat.exists_eq_add_one.mpr (Nat.zero_lt_of_lt hle)
    exact endsAs_later _ fun _ => endsAs_later _ fun
      | none => endsAs_refl _
      | some _ => endsAs_bind (ih (Nat.le_of_succ_le_succ hle)) fun _ => endsAs_refl _

theorem endsAs_menuOptions (hle : m ≤ m') : EndsAs (menuOptions tokens m) (menuOptions tokens m') := by
  induction m generalizing m' with
  | zero => exact endsAs_unfinished _
  | succ m ih =>
    obtain ⟨m', rfl⟩ : ∃ k, m' = k + 1 := Nat.exists_eq_add_one.mpr (Nat.zero_lt_of_lt hle)
    have hle' : m ≤ m' := Nat.le_of_succ_le_succ hle
    exact endsAs_later _ fun
      | none => endsAs_refl _
      | some _ => endsAs_bind (deeper tokens hle').expr fun _ => endsAs_later _ fun _ => endsAs_later _ fun _ =>
        endsAs_bind (ih hle') fun _ => endsAs_refl _

theorem endsAs_forCommand (hle : m ≤ m') (line : Nat) :
    EndsAs (forCommand tokens m line) (forCommand tokens m' line) := by
  have hexpr := (deeper tokens hle).expr
  refine endsAs_later _ fun _ => endsAs_later _ fun _ => endsAs_later _ fun _ => ?_
  refine endsAs_bind hexpr fun _ => endsAs_later _ fun _ => ?_
  refine endsAs_bind hexpr fun _ => endsAs_later _ fun
    | some _ => endsAs_bind hexpr fun _ => endsAs_refl _
    | none => endsAs_refl _

theorem endsAs_outputCommand (hle : m ≤ m') : EndsAs (outputCommand tokens m) (outputCommand tokens m') := by
  have hexpr := (deeper tokens hle).expr
  refine endsAs_later _ fun _ => ?_
  refine endsAs_bind hexpr fun _ => endsAs_later _ fun _ => ?_
  refine endsAs_bind hexpr fun _ => endsAs_later _ fun _ => ?_
  exact endsAs_bind hexpr fun _ => endsAs_refl _

theorem endsAs_dispCommand (hle : m ≤ m') : EndsAs (dispCommand tokens m) (dispCommand tokens m') := by
  refine endsAs_later _ fun more => ?_
  cases more with
  | true => exact endsAs_bind (deeper tokens hle).items fun _ => endsAs_refl _
  | false => exact endsAs_refl _

theorem endsAs_pauseCommand (hle : m ≤ m') : EndsAs (pauseCommand tokens m) (pauseCommand tokens m') := by
  refine endsAs_later _ fun more => ?_
  cases more with
  | true => exact endsAs_bind (deeper tokens hle).expr fun _ => endsAs_refl _
  | false => exact endsAs_refl _

theorem endsAs_menuCommand (hle : m ≤ m') : EndsAs (menuCommand tokens m) (menuCommand tokens m') :=
  endsAs_later _ fun _ => endsAs_bind (deeper tokens hle).expr fun _ =>
    endsAs_bind (endsAs_menuOptions hle) fun _ => endsAs_refl _

theorem endsAs_keyword (hle : m ≤ m') (line : Nat) (word : String) :
    Option.Rel EndsAs (keyword? tokens m line word) (keyword? tokens m' line word) := by
  have hexpr := (deeper tokens hle).expr
  unfold keyword?
  split
  · exact .some (endsAs_map hexpr Command.ifTest)
  · exact .some (endsAs_refl _)
  · exact .some (endsAs_refl _)
  · exact .some (endsAs_refl _)
  · exact .some (endsAs_refl _)
  · exact .some (endsAs_map hexpr Command.whileLoop)
  · exact .some (endsAs_map hexpr Command.repeatLoop)
  · exact .some (endsAs_forCommand hle line)
  · exact .some (endsAs_dispCommand hle)
  · exact .some (endsAs_outputCommand hle)
  · exact .some (endsAs_bind hexpr fun _ => endsAs_refl _)
  · exact .some (endsAs_map (endsAs_names hle) Command.prompt)
  · exact .some (endsAs_pauseCommand hle)
  · exact .some (endsAs_menuCommand hle)
  · exact .some (endsAs_refl _)
  · exact .some (endsAs_refl _)
  · exact .some (endsAs_refl _)
  · exact .none

theorem endsAs_statement (hle : m ≤ m') : EndsAs (statement tokens m) (statement tokens m') := by
  refine endsAs_later _ fun t => ?_
  have hcompute : EndsAs (Statement.mk t.line <$> computeCommand tokens m)
      (Statement.mk t.line <$> computeCommand tokens m') :=
    endsAs_map (endsAs_later _ fun _ => endsAs_map (deeper tokens hle).expr Command.compute) _
  obtain ⟨lexeme, l, col⟩ := t
  cases lexeme with
  | identifier name =>
    have hword : Option.Rel EndsAs (keyword? tokens m l name.toLower) (keyword? tokens m' l name.toLower) :=
      endsAs_keyword hle l name.toLower
    dsimp only at hcompute ⊢
    generalize keyword? tokens m l name.toLower = k at hword
    generalize keyword? tokens m' l name.toLower = k' at hword
    cases hword with
    | none => exact hcompute
    | some hcommand => exact endsAs_later _ fun _ => endsAs_map hcommand (Statement.mk l)
  | _ => exact hcompute

end Readers

end PocketBasic.Indexed
