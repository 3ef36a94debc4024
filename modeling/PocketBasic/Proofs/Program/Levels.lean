import PocketBasic.Proofs.Program.Reads

/-!
# The levels of an expression are read as they are written

`ReadsAt line level xs x` says that the lexemes `xs` are read as the expression `x` by the reader of a
level. For the levels that repeat, operands with their calls, products and sums, the reader is then
still ready to go on, with as many repetitions left as there are lexemes not yet used up.
-/

namespace PocketBasic

/-- What follows does not continue an expression of the level or of a tighter one. -/
structure Level.Ends (place : Level) (o : Option Lexeme) : Prop where
  operand : Misses Lexeme.openParen? o
  comparison : place.rank ≤ Level.comparison.rank → Misses Lexeme.comparison? o
  product : place.rank ≤ Level.product.rank → Misses Lexeme.productOp? o
  sum : place.rank ≤ Level.sum.rank → Misses Lexeme.sumOp? o
  assignment : place.rank ≤ Level.assignment.rank → Misses Lexeme.arrow? o

theorem Level.Ends.tighten {place tighter : Level} {o : Option Lexeme} (h : place.Ends o)
    (hrank : place.rank ≤ tighter.rank) : tighter.Ends o where
  operand := h.operand
  comparison hle := h.comparison (Nat.le_trans hrank hle)
  product hle := h.product (Nat.le_trans hrank hle)
  sum hle := h.sum (Nat.le_trans hrank hle)
  assignment hle := h.assignment (Nat.le_trans hrank hle)

theorem ends_none (place : Level) : place.Ends none :=
  ⟨rfl, fun _ => rfl, fun _ => rfl, fun _ => rfl, fun _ => rfl⟩

theorem ends_comma (place : Level) : place.Ends (some .comma) :=
  ⟨rfl, fun _ => rfl, fun _ => rfl, fun _ => rfl, fun _ => rfl⟩

theorem ends_closeParen (place : Level) : place.Ends (some .closeParen) :=
  ⟨rfl, fun _ => rfl, fun _ => rfl, fun _ => rfl, fun _ => rfl⟩

theorem ends_arrow : Level.sum.Ends (some .assignment) :=
  ⟨rfl, fun _ => rfl, fun _ => rfl, fun _ => rfl, fun h => absurd h (by decide)⟩

theorem ends_comparison (sign : ComparisonSign) : Level.operand.Ends (some (.comparison sign)) :=
  ⟨rfl, fun h => absurd h (by decide), fun _ => rfl, fun _ => rfl, fun _ => rfl⟩

namespace Reader

variable {α : Type} {l line n : Nat} {op? : Lexeme → Option BinaryOp} {item : Reader Expr}
  {left right : Expr} {op : BinaryOp} {y : Lexeme} {xs ys : List Lexeme}
  {F G : Option Lexeme → Prop}

theorem reads_leftChain_end (n : Nat) :
    Reads line line (leftChain op? item n left) [] (Misses op?) (pure left) := by
  cases n with
  | zero => exact (reads_nothing (pure left)).mono fun _ _ => trivial
  | succ n => exact reads_acceptSameLine_none.result _

theorem reads_leftChain_next (hop : op? y = some op) (hitem : Reads line line item ys F (pure right)) :
    Reads line line (leftChain op? item (n + 1) left) (y :: ys) F
      (leftChain op? item n (.binary line op left right)) := by
  have hsign : Reads line line (leftChain op? item (n + 1) left) [y] Anything (do
      let line ← currentLine
      let right ← item
      leftChain op? item n (.binary line op left right)) :=
    (reads_acceptSameLine hop).result _
  have hline : Reads line line (do
      let line ← currentLine
      let right ← item
      leftChain op? item n (.binary line op left right)) [] Anything (do
      let right ← item
      leftChain op? item n (.binary line op left right)) :=
    reads_currentLine.result _
  exact (hsign.andThen hline).followed (hitem.result _)

/-- Items with commas between them, each written as `w` says and read as `v` says. -/
theorem reads_commaList {γ : Type} {item : Reader α} {w : γ → List Lexeme} {v : γ → α}
    (hF : F (some .comma)) (items : List γ) (hne : items ≠ [])
    (hitems : ∀ c ∈ items, ∀ l, Reads l line item (w c) F (pure (v c)))
    (hn : items.length ≤ n + 1) :
    Reads l line (commaList item n) (commaSeparated (items.map w))
      (fun o => F o ∧ Misses Lexeme.comma? o) (pure (items.map v)) := by
  induction items generalizing l n with
  | nil => exact absurd rfl hne
  | cons c items ih =>
    have hfirst := hitems c List.mem_cons_self l
    cases items with
    | nil =>
      have hend : Reads l line (commaList item n) (w c) (fun o => F o ∧ Misses Lexeme.comma? o)
          (pure [v c]) := by
        cases n with
        | zero => exact (hfirst.result _).mono fun _ h => h.1
        | succ n =>
          refine ((hfirst.mono fun _ h => h.1).result _).andThen ?_
          exact (reads_acceptSameLine_none.mono fun _ h => h.2).result _
      exact hend
    | cons c' items =>
      have hpos : ∃ m, n = m + 1 := by
        cases n with
        | zero => simp at hn
        | succ m => exact ⟨m, rfl⟩
      obtain ⟨m, rfl⟩ := hpos
      have hrest := ih (l := line) (n := m) (List.cons_ne_nil _ _)
        (fun d hd => hitems d (List.mem_cons_of_mem c hd)) (by simpa using hn)
      have hcomma : Reads line line (acceptSameLine? Lexeme.comma?) [.comma] Anything
          (pure (some ())) := reads_acceptSameLine rfl
      refine (hfirst.result _).trans ((hcomma.result _).followed ?_) fun _ _ => hF
      exact hrest.result _

end Reader

open Reader in
/-- The lexemes are read as the expression by the reader of the level. -/
def ReadsAt (line : Nat) : Level → List Lexeme → Expr → Prop
  | .operand, xs, x => ∀ l N, xs.length ≤ N + 1 → ∃ j, N + 1 ≤ j + xs.length ∧
    Reads l line (operand (N + 1)) xs Anything (calls (expr N) j x)
  | .comparison, xs, x => ∀ l N, xs.length ≤ N →
    Reads l line (comparison (operand N)) xs Level.comparison.Ends (pure x)
  | .product, xs, x => ∀ l N n, xs.length ≤ N → xs.length ≤ n → ∃ j, n + 1 ≤ j + xs.length ∧
    Reads l line (product (operand N) n) xs Level.comparison.Ends
      (leftChain Lexeme.productOp? (comparison (operand N)) j x)
  | .sum, xs, x => ∀ l N n, xs.length ≤ N → xs.length ≤ n → ∃ j, n + 1 ≤ j + xs.length ∧
    Reads l line (sum (operand N) n) xs Level.product.Ends
      (leftChain Lexeme.sumOp? (product (operand N) n) j x)
  | .assignment, xs, x => ∀ l N n, xs.length ≤ N → xs.length ≤ n →
    Reads l line (assignment (operand N) n) xs Level.assignment.Ends (pure x)

namespace ReadsAt

open Reader

variable {l line N n : Nat} {xs ys : List Lexeme} {x : Expr}

theorem operand_complete (h : ReadsAt line .operand xs x) (hN : xs.length ≤ N) (hpos : 0 < xs.length) :
    Reads l line (operand N) xs Level.operand.Ends (pure x) := by
  obtain ⟨M, rfl⟩ : ∃ M, N = M + 1 := ⟨N - 1, by omega⟩
  obtain ⟨j, -, hr⟩ := h l M hN
  have hend : Reads line line (calls (expr M) j x) [] Level.operand.Ends (pure x) := by
    cases j with
    | zero => exact (reads_nothing (pure x)).mono fun _ _ => trivial
    | succ j => exact (reads_acceptSameLine_none.result _).mono fun _ ho => ho.operand
  exact (hr.mono fun _ _ => trivial).andThen hend

theorem product_complete (h : ReadsAt line .product xs x) (hN : xs.length ≤ N) (hn : xs.length ≤ n) :
    Reads l line (product (operand N) n) xs Level.product.Ends (pure x) := by
  obtain ⟨j, -, hr⟩ := h l N n hN hn
  have hend : Reads line line (leftChain Lexeme.productOp? (comparison (operand N)) j x) []
      Level.product.Ends (pure x) :=
    (reads_leftChain_end j).mono fun _ ho => ho.product (Nat.le_refl _)
  exact (hr.mono fun _ ho => ho.tighten (by decide)).andThen hend

theorem sum_complete (h : ReadsAt line .sum xs x) (hN : xs.length ≤ N) (hn : xs.length ≤ n) :
    Reads l line (sum (operand N) n) xs Level.sum.Ends (pure x) := by
  obtain ⟨j, -, hr⟩ := h l N n hN hn
  have hend : Reads line line (leftChain Lexeme.sumOp? (product (operand N) n) j x) []
      Level.sum.Ends (pure x) :=
    (reads_leftChain_end j).mono fun _ ho => ho.sum (Nat.le_refl _)
  exact (hr.mono fun _ ho => ho.tighten (by decide)).andThen hend

theorem comparison_of_operand (h : ReadsAt line .operand xs x) (hpos : 0 < xs.length) :
    ReadsAt line .comparison xs x := by
  intro l N hN
  have hleft : Reads l line (operand N) xs Level.comparison.Ends (pure x) :=
    (h.operand_complete hN hpos).mono fun _ ho => ho.tighten (by decide)
  have hnone : Reads line line (acceptSameLine? Lexeme.comparison?) [] Level.comparison.Ends
      (pure none) := reads_acceptSameLine_none.mono fun _ ho => ho.comparison (Nat.le_refl _)
  exact (hleft.result _).andThen (hnone.result _)

theorem product_of_comparison (h : ReadsAt line .comparison xs x) (hpos : 0 < xs.length) :
    ReadsAt line .product xs x := by
  intro l N n hN _
  exact ⟨n, Nat.add_le_add_left hpos n, (h l N hN).result _⟩

theorem sum_of_product (h : ReadsAt line .product xs x) (hpos : 0 < xs.length) :
    ReadsAt line .sum xs x := by
  intro l N n hN hn
  exact ⟨n, Nat.add_le_add_left hpos n, (h.product_complete hN hn).result _⟩

theorem assignment_of_sum (h : ReadsAt line .sum xs x) (hpos : 0 < xs.length) :
    ReadsAt line .assignment xs x := by
  intro l N n hN hn
  obtain ⟨m, rfl⟩ : ∃ m, n = m + 1 := ⟨n - 1, by omega⟩
  have hvalue : Reads l line (sum (operand N) (m + 1)) xs Level.assignment.Ends (pure x) :=
    (h.sum_complete hN hn).mono fun _ ho => ho.tighten (by decide)
  have hnone : Reads line line (acceptSameLine? Lexeme.arrow?) [] Level.assignment.Ends
      (pure none) := reads_acceptSameLine_none.mono fun _ ho => ho.assignment (Nat.le_refl _)
  exact (hvalue.result _).andThen (hnone.result _)

theorem loosen {level place : Level} (h : ReadsAt line level xs x) (hpos : 0 < xs.length)
    (hrank : place.rank ≤ level.rank) : ReadsAt line place xs x := by
  have hsum (hs : ReadsAt line .sum xs x) (hp : place.rank ≤ 1) : ReadsAt line place xs x := by
    cases place with
    | assignment => exact hs.assignment_of_sum hpos
    | sum => exact hs
    | product => exact absurd hp (by decide)
    | comparison => exact absurd hp (by decide)
    | operand => exact absurd hp (by decide)
  have hproduct (hs : ReadsAt line .product xs x) (hp : place.rank ≤ 2) :
      ReadsAt line place xs x := by
    rcases Nat.lt_or_eq_of_le hp with hlt | heq
    · exact hsum (hs.sum_of_product hpos) (Nat.le_of_lt_succ hlt)
    · cases place <;> cases heq
      exact hs
  have hcomparison (hs : ReadsAt line .comparison xs x) (hp : place.rank ≤ 3) :
      ReadsAt line place xs x := by
    rcases Nat.lt_or_eq_of_le hp with hlt | heq
    · exact hproduct (hs.product_of_comparison hpos) (Nat.le_of_lt_succ hlt)
    · cases place <;> cases heq
      exact hs
  cases level with
  | assignment =>
    have heq : place = .assignment := by
      cases place <;> first | rfl | exact absurd hrank (by decide)
    rw [heq]
    exact h
  | sum => exact hsum h hrank
  | product => exact hproduct h hrank
  | comparison => exact hcomparison h hrank
  | operand =>
    rcases Nat.lt_or_eq_of_le hrank with hlt | heq
    · exact hcomparison (h.comparison_of_operand hpos) (Nat.le_of_lt_succ hlt)
    · cases place <;> cases heq
      exact h

end ReadsAt

end PocketBasic
