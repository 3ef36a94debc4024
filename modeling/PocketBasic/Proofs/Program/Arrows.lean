import PocketBasic.Proofs.Program.OneLine

/-!
# The arrows of a program

Each arrow among the tokens becomes one assignment, whose right side is a variable. `Reader.Tallies` counts
the arrows along the readers: a reader that starts behind some of them ends behind as many more as its
result has assignments. If it fails, then with a syntax error on the line of one of the tokens.
-/

namespace PocketBasic

mutual

/-- The assignments at any depth of an expression: what is assigned, and the right side. -/
def Expr.assignments : Expr → List (Expr × Expr)
  | .number .. | .text .. | .name .. => []
  | .binary _ _ left right => left.assignments ++ right.assignments
  | .assign _ value targetLine target => (value, .name targetLine target) :: value.assignments
  | .call _ function args => function.assignments ++ Expr.assignmentsEach args

def Expr.assignmentsEach : List Expr → List (Expr × Expr)
  | [] => []
  | x :: xs => x.assignments ++ Expr.assignmentsEach xs

end

theorem Expr.assignmentsEach_eq_flatMap (xs : List Expr) :
    Expr.assignmentsEach xs = xs.flatMap Expr.assignments := by
  induction xs with
  | nil => rfl
  | cons x xs ih => rw [assignmentsEach, ih, List.flatMap_cons]

def Command.assignments (c : Command) : List (Expr × Expr) := c.exprs.flatMap Expr.assignments

def Program.assignments (p : Program) : List (Expr × Expr) :=
  p.statements.flatMap (·.command.assignments)

mutual

theorem Expr.target_of_mem_assignments {a : Expr × Expr} :
    (x : Expr) → a ∈ x.assignments → ∃ line id, a.2 = .name line id
  | .number .., h | .text .., h | .name .., h => by cases h
  | .binary _ _ left right, h => by
    rcases List.mem_append.mp h with h | h
    · exact Expr.target_of_mem_assignments left h
    · exact Expr.target_of_mem_assignments right h
  | .assign _ value targetLine target, h => by
    rcases List.mem_cons.mp h with rfl | h
    · exact ⟨targetLine, target, rfl⟩
    · exact Expr.target_of_mem_assignments value h
  | .call _ function args, h => by
    rcases List.mem_append.mp h with h | h
    · exact Expr.target_of_mem_assignments function h
    · exact Expr.target_of_mem_assignmentsEach args h

theorem Expr.target_of_mem_assignmentsEach {a : Expr × Expr} :
    (xs : List Expr) → a ∈ Expr.assignmentsEach xs → ∃ line id, a.2 = .name line id
  | [], h => by cases h
  | x :: xs, h => by
    rcases List.mem_append.mp h with h | h
    · exact Expr.target_of_mem_assignments x h
    · exact Expr.target_of_mem_assignmentsEach xs h

end

theorem Program.target_of_mem_assignments {p : Program} {a : Expr × Expr} (h : a ∈ p.assignments) :
    ∃ line id, a.2 = .name line id := by
  obtain ⟨s, -, ha⟩ := List.mem_flatMap.mp h
  obtain ⟨x, -, hx⟩ := List.mem_flatMap.mp ha
  exact x.target_of_mem_assignments hx

def Token.isArrow (t : Token) : Bool :=
  match t.lexeme with
  | .assignment => true
  | _ => false

def arrows (ts : List Token) : Nat := ts.countP Token.isArrow

/-- A syntax error on the line of one of the tokens. -/
structure Fault.Misread (tokens : List Token) (e : Fault) : Prop where
  category : e.category = "SYNTAX ERROR"
  line : ∃ t ∈ tokens, t.line = e.line

/-- Of the tokens, `k` arrows and at least one token have been read. -/
structure Cursor.Behind (tokens : List Token) (k : Nat) (c : Cursor) : Prop where
  suffix : c.rest <:+ tokens
  count : k + arrows c.rest = arrows tokens
  line : ∃ t ∈ tokens, t.line = c.line

section Cursors

variable {tokens ts : List Token} {k : Nat} {c : Cursor} {t : Token}

/-- What is accepted by a function that does not accept an arrow is none. -/
theorem Token.isArrow_eq_false {α : Type} {f : Lexeme → Option α} {a : α} (hf : f .assignment = none)
    (h : f t.lexeme = some a) : t.isArrow = false := by
  unfold isArrow
  split
  · next hlexeme =>
    rw [hlexeme, hf] at h
    cases h
  · rfl

theorem Cursor.Behind.mem (h : c.Behind tokens k) (hrest : c.rest = t :: ts) : t ∈ tokens :=
  h.suffix.subset (hrest ▸ List.mem_cons_self)

theorem Cursor.Behind.next (h : c.Behind tokens k) (hrest : c.rest = t :: ts) :
    Cursor.Behind tokens (k + if t.isArrow then 1 else 0) ⟨t.line, ts⟩ where
  suffix := Reader.suffix_tail h.suffix hrest
  count := by
    have hcount : k + arrows (t :: ts) = arrows tokens := hrest ▸ h.count
    have hcons : arrows (t :: ts) = arrows ts + if t.isArrow then 1 else 0 := List.countP_cons
    change k + (if t.isArrow then 1 else 0) + arrows ts = arrows tokens
    omega
  line := ⟨t, h.mem hrest, rfl⟩

theorem Cursor.Behind.skip (h : c.Behind tokens k) (hrest : c.rest = t :: ts) (ht : t.isArrow = false) :
    Cursor.Behind tokens k ⟨t.line, ts⟩ := by
  have hnext := h.next hrest
  rwa [ht, if_neg Bool.false_ne_true, Nat.add_zero] at hnext

theorem Cursor.Behind.misread (h : c.Behind tokens k) (expected : String) :
    (c.unexpected expected).Misread tokens := by
  unfold Cursor.unexpected
  split
  · next t ts hrest => exact ⟨rfl, t, h.mem hrest, rfl⟩
  · exact ⟨rfl, h.line⟩

end Cursors

namespace Reader

/-- The result is behind as many arrows as it counts, or the tokens are misread. -/
inductive Told {α : Type} (tokens : List Token) (count : α → Nat) : Except Fault (α × Cursor) → Prop
  | ok {a : α} {c : Cursor} (h : c.Behind tokens (count a)) : Told tokens count (.ok (a, c))
  | error {e : Fault} (h : e.Misread tokens) : Told tokens count (.error e)

/-- Behind `k` arrows the reader starts, and it ends behind as many as its result counts. -/
def Tallies {α : Type} (tokens : List Token) (k : Nat) (r : Reader α) (count : α → Nat) : Prop :=
  ∀ c : Cursor, c.Behind tokens k → Told tokens count (r c)

section Rules

variable {α β : Type} {tokens : List Token} {k : Nat} {r : Reader α} {f : α → Reader β}
  {count : α → Nat} {count' : β → Nat} {a : α}

theorem tallies_pure (h : count a = k) : Tallies tokens k (pure a) count := by
  intro c hc
  exact .ok (h ▸ hc)

theorem tallies_bind (h : Tallies tokens k r count)
    (hf : ∀ a, Tallies tokens (count a) (f a) count') : Tallies tokens k (r >>= f) count' := by
  intro c hc
  have hr := h c hc
  cases hq : r c with
  | error e =>
    rw [hq] at hr
    rw [bind_of_error hq]
    cases hr with
    | error he => exact .error he
  | ok q =>
    obtain ⟨a, c₁⟩ := q
    rw [hq] at hr
    rw [bind_of_ok hq]
    cases hr with
    | ok h₁ => exact hf a c₁ h₁

theorem tallies_map {g : α → β} (h : Tallies tokens k r fun a => count' (g a)) :
    Tallies tokens k (g <$> r) count' := by
  have hbind : Tallies tokens k (r >>= fun a => pure (g a)) count' :=
    tallies_bind h fun a => tallies_pure rfl
  exact hbind

theorem tallies_fail (expected : String) : Tallies tokens k (fail expected) count :=
  fun _ hc => .error (hc.misread expected)

theorem tallies_expect {p : Lexeme → Option α} (hp : p .assignment = none) (expected : String) :
    Tallies tokens k (expect p expected) fun _ => k := by
  intro c hc
  unfold expect
  split
  · next t ts hrest =>
    split
    · next a ha => exact .ok (hc.skip hrest (Token.isArrow_eq_false hp ha))
    · exact .error (hc.misread expected)
  · exact .error (hc.misread expected)

theorem tallies_accept? {p : Lexeme → Option α} (hp : p .assignment = none) :
    Tallies tokens k (accept? p) fun _ => k := by
  intro c hc
  unfold accept?
  split
  · next t ts hrest =>
    split
    · next a ha => exact .ok (hc.skip hrest (Token.isArrow_eq_false hp ha))
    · exact .ok hc
  · exact .ok hc

/-- A token that may follow on the same line is taken, or the cursor stays. -/
theorem acceptSameLine?_cases (p : Lexeme → Option α) (c : Cursor) :
    acceptSameLine? p c = .ok (none, c) ∨ ∃ t ts a, c.rest = t :: ts ∧ p t.lexeme = some a ∧
      acceptSameLine? p c = .ok (some a, ⟨t.line, ts⟩) := by
  obtain ⟨line, rest⟩ := c
  unfold acceptSameLine?
  split
  · next a ha =>
    obtain ⟨t, ht, hp⟩ := Option.bind_eq_some_iff.mp ha
    cases rest with
    | nil => cases ht
    | cons u us =>
      simp only [Cursor.sameLine?, Option.ite_none_right_eq_some] at ht
      obtain ⟨-, hu⟩ := ht
      cases hu
      exact .inr ⟨t, us, a, rfl, hp, rfl⟩
  · exact .inl rfl

theorem tallies_acceptSameLine? {p : Lexeme → Option α} (hp : p .assignment = none) :
    Tallies tokens k (acceptSameLine? p) fun _ => k := by
  intro c hc
  rcases acceptSameLine?_cases p c with h | ⟨t, ts, a, hrest, ha, h⟩
  · exact h ▸ .ok hc
  · exact h ▸ .ok (hc.skip hrest (Token.isArrow_eq_false hp ha))

theorem tallies_arrow : Tallies tokens k (acceptSameLine? Lexeme.arrow?)
    fun o => k + if o.isSome then 1 else 0 := by
  intro c hc
  rcases acceptSameLine?_cases Lexeme.arrow? c with h | ⟨t, ts, a, hrest, ha, h⟩
  · exact h ▸ .ok hc
  · have hnext := hc.next hrest
    have harrow : t.isArrow = true := by
      unfold Token.isArrow
      cases hlexeme : t.lexeme <;> rw [hlexeme] at ha <;> first | rfl | cases ha
    rw [harrow] at hnext
    exact h ▸ .ok hnext

theorem tallies_moreOnLine : Tallies tokens k moreOnLine fun _ => k :=
  fun _ hc => .ok hc

theorem tallies_currentLine_bind {f : Nat → Reader β}
    (h : ∀ line, (∃ t ∈ tokens, t.line = line) → Tallies tokens k (f line) count') :
    Tallies tokens k (currentLine >>= f) count' :=
  fun c hc => h c.line hc.line c hc

end Rules

section Levels

variable {α : Type} {tokens : List Token} {k : Nat} {item : Reader Expr}

/-- The reader takes as many arrows as its expression has assignments. -/
def TalliesExpr (tokens : List Token) (item : Reader Expr) : Prop :=
  ∀ k, Tallies tokens k item fun x => k + x.assignments.length

theorem tallies_leftChain {op? : Lexeme → Option BinaryOp} (hop : op? .assignment = none)
    (h : TalliesExpr tokens item) (n : Nat) (left : Expr) :
    Tallies tokens (k + left.assignments.length) (leftChain op? item n left)
      fun x => k + x.assignments.length := by
  induction n generalizing left with
  | zero => exact tallies_pure rfl
  | succ n ih =>
    refine tallies_bind (tallies_acceptSameLine? hop) fun o => ?_
    cases o with
    | none => exact tallies_pure rfl
    | some op =>
      refine tallies_currentLine_bind fun line _ => tallies_bind (h _) fun right => ?_
      have hcount : k + left.assignments.length + right.assignments.length =
          k + (Expr.binary line op left right).assignments.length := by
        rw [Expr.assignments, List.length_append, Nat.add_assoc]
      rw [hcount]
      exact ih (.binary line op left right)

theorem tallies_comparison (h : TalliesExpr tokens item) : TalliesExpr tokens (comparison item) := by
  intro k
  refine tallies_bind (h k) fun left => ?_
  refine tallies_bind (tallies_acceptSameLine? rfl) fun o => ?_
  cases o with
  | none => exact tallies_pure rfl
  | some sign =>
    refine tallies_currentLine_bind fun line _ => ?_
    -- Behind the sign all branches go on in the same way.
    have hright (op : BinaryOp) : Tallies tokens (k + left.assignments.length)
        (do
          let op ← (pure op : Reader BinaryOp)
          let right ← item
          pure (.binary line op left right) : Reader Expr) fun x => k + x.assignments.length := by
      have hop : Tallies tokens (k + left.assignments.length) (pure op : Reader BinaryOp)
          fun _ => k + left.assignments.length := tallies_pure rfl
      refine tallies_bind hop fun op => tallies_bind (h _) fun right => tallies_pure ?_
      rw [Expr.assignments, List.length_append, Nat.add_assoc]
    cases sign with
    | bang => exact tallies_bind (tallies_expect rfl _) fun _ => hright .ne
    | equals => exact hright .eq
    | greater => exact hright .gt
    | less => exact hright .lt
    | greaterEquals => exact hright .ge
    | lessEquals => exact hright .le

theorem tallies_product (h : TalliesExpr tokens item) (n : Nat) : TalliesExpr tokens (product item n) :=
  fun k => tallies_bind (tallies_comparison h k) fun left =>
    tallies_leftChain rfl (tallies_comparison h) n left

theorem tallies_sum (h : TalliesExpr tokens item) (n : Nat) : TalliesExpr tokens (sum item n) :=
  fun k => tallies_bind (tallies_product h n k) fun left =>
    tallies_leftChain rfl (tallies_product h n) n left

theorem tallies_assignment (h : TalliesExpr tokens item) (n : Nat) :
    TalliesExpr tokens (assignment item n) := by
  induction n with
  | zero => exact tallies_sum h 0
  | succ n ih =>
    intro k
    refine tallies_bind (tallies_sum h (n + 1) k) fun value => tallies_bind tallies_arrow fun o => ?_
    cases o with
    | none => exact tallies_pure rfl
    | some u =>
      -- The right side is read like any expression. Only a name is taken, and it has no arrow.
      intro c hc
      have hright := ih _ c hc
      dsimp only
      split
      · next e htarget =>
        rw [htarget] at hright
        cases hright with
        | error he => exact .error he
      · next line target c' htarget =>
        rw [htarget] at hright
        cases hright with
        | ok hc' => exact .ok hc'
      · exact .error (hc.misread "Identifier")

theorem tallies_commaList {item : Reader α} {count : α → Nat}
    (h : ∀ k, Tallies tokens k item fun x => k + count x) (n k : Nat) :
    Tallies tokens k (commaList item n) fun xs => k + (xs.map count).sum := by
  induction n generalizing k with
  | zero => exact tallies_bind (h k) fun x => tallies_pure (by simp)
  | succ n ih =>
    refine tallies_bind (h k) fun x => tallies_bind (tallies_acceptSameLine? rfl) fun o => ?_
    cases o with
    | none => exact tallies_pure (by simp)
    | some u =>
      refine tallies_bind (ih _) fun xs => tallies_pure ?_
      rw [List.map_cons, List.sum_cons, Nat.add_assoc]

theorem length_assignmentsEach (xs : List Expr) :
    (Expr.assignmentsEach xs).length = (xs.map fun x => x.assignments.length).sum := by
  rw [Expr.assignmentsEach_eq_flatMap, List.length_flatMap]

theorem tallies_arguments (h : TalliesExpr tokens item) (n : Nat) :
    Tallies tokens k (arguments item n) fun xs => k + (Expr.assignmentsEach xs).length := by
  refine tallies_bind (tallies_accept? rfl) fun o => ?_
  cases o with
  | some u => exact tallies_pure rfl
  | none =>
    refine tallies_bind (tallies_commaList h n k) fun xs =>
      tallies_bind (tallies_expect rfl _) fun u => tallies_pure ?_
    rw [length_assignmentsEach]

theorem tallies_calls (h : TalliesExpr tokens item) (n : Nat) (x : Expr) :
    Tallies tokens (k + x.assignments.length) (calls item n x) fun y => k + y.assignments.length := by
  induction n generalizing x with
  | zero => exact tallies_pure rfl
  | succ n ih =>
    refine tallies_bind (tallies_acceptSameLine? rfl) fun o => ?_
    cases o with
    | none => exact tallies_pure rfl
    | some u =>
      refine tallies_currentLine_bind fun line _ => tallies_bind (tallies_arguments h n) fun args => ?_
      have hcount : k + x.assignments.length + (Expr.assignmentsEach args).length =
          k + (Expr.call line x args).assignments.length := by
        rw [Expr.assignments, List.length_append, Nat.add_assoc]
      rw [hcount]
      exact ih (.call line x args)

theorem tallies_term {operand : Reader Expr} (h : TalliesExpr tokens item)
    (hoperand : TalliesExpr tokens operand) : TalliesExpr tokens (term item operand) := by
  intro k c hc
  unfold term
  split
  · exact .error (hc.misread "expression")
  · next t ts hrest =>
    have hskip (hlexeme : t.lexeme ≠ .assignment) : Cursor.Behind tokens k ⟨t.line, ts⟩ := by
      refine hc.skip hrest ?_
      unfold Token.isArrow
      split
      · next harrow => exact absurd harrow hlexeme
      · rfl
    split
    · next hlexeme => exact .ok (hskip (by simp [hlexeme]))
    · next hlexeme => exact .ok (hskip (by simp [hlexeme]))
    · next hlexeme => exact .ok (hskip (by simp [hlexeme]))
    · next hlexeme =>
      have hparen : Tallies tokens k (do
          let x ← item
          closeParen
          pure x) fun x => k + x.assignments.length :=
        tallies_bind (h k) fun x => tallies_bind (tallies_expect rfl _) fun u => tallies_pure rfl
      exact hparen _ (hskip (by simp [hlexeme]))
    · next hlexeme =>
      have hminus : Tallies tokens k (do
          let x ← operand
          pure (.binary t.line .sub (.number t.line 0) x) : Reader Expr)
          fun x => k + x.assignments.length :=
        tallies_bind (hoperand k) fun x => tallies_pure rfl
      exact hminus _ (hskip (by simp [hlexeme]))
    · exact .error (hc.misread "expression")

theorem tallies_operand (n : Nat) : TalliesExpr tokens (operand n) := by
  induction n with
  | zero => exact fun _ => tallies_fail _
  | succ n ih =>
    have hexpr := tallies_assignment ih n
    exact fun k => tallies_bind (tallies_term hexpr ih k) fun x => tallies_calls hexpr n x

theorem tallies_expr (n : Nat) : TalliesExpr tokens (expr n) :=
  tallies_assignment (tallies_operand n) n

end Levels

end Reader

end PocketBasic
