import PocketBasic.Proofs.Program.AlongStatement
import PocketBasic.Proofs.Program.Deeper
import PocketBasic.Proofs.Program.Reading

/-!
# Every token is read once

Whatever the tokens are, reading them comes to an end without a token past the last one being asked for, and
with the result of compilation. A statement, or any level of an expression, that is read at a place leaves
the place at least one token further on. So the tokens of a program fall into one span for each statement.
-/

namespace PocketBasic.Indexed

/-- Calls nested as deep as this are enough to read the tokens. -/
def depth (tokens : List Token) : Nat := 10 * tokens.length + 11

section Readers

variable {α : Type} {tokens : List Token} {c i j m m' : Nat} {w w' : Indexed α} {r : Reader α}

/-- From position `i` the reader asks for no token past the last, and where it returns something it has read
at least one token. -/
structure Advances (tokens : List Token) (w : Indexed α) (i : Nat) : Prop where
  inside : w i ≠ .error .overrun
  advanced : ∀ a j, w i = .ok (a, j) → i < j ∧ j ≤ tokens.length

def levels (tokens : List Token) (m : Nat) : List (Indexed Expr) :=
  [expr tokens m, sum tokens m, product tokens m, comparison tokens m, operand tokens m, term tokens m]

theorem Agrees.ended {least : Nat} {o : Except Halt (α × Nat)} {x : Except Fault (α × Cursor)}
    (h : Agrees tokens least o x) : o ≠ .error .unfinished := by
  rintro rfl
  cases h

theorem Agrees.advances {x : Except Fault (α × Cursor)} (h : Agrees tokens (i + 1) (w i) x) :
    Advances tokens w i := by
  refine ⟨fun hover => ?_, fun a j hread => ?_⟩
  · rw [hover] at h
    cases h
  · rw [hread] at h
    cases h with
    | ok hleast hj => exact ⟨hleast, hj⟩

theorem EndsAs.advances (h : EndsAs w w') (hadvances : Advances tokens w' i) : Advances tokens w i := by
  refine ⟨fun hover => ?_, fun a j hread => ?_⟩
  · obtain hw | hw := h i
    · rw [hw] at hover
      cases hover
    · exact hadvances.inside (hw.symm.trans hover)
  · obtain hw | hw := h i
    · rw [hw] at hread
      cases hread
    · exact hadvances.advanced a j (hw.symm.trans hread)

theorem AllAlong.advances {w : Nat → Indexed α} (h : AllAlong tokens tokens.length c w r)
    (hw : ∀ m m', m ≤ m' → EndsAs (w m) (w m')) (hi : i ≤ tokens.length) (m : Nat) :
    Advances tokens (w m) i := by
  have hagrees := h (fun _ => True) tokens.length (m + (10 * tokens.length + c)) (Nat.le_refl _)
    (Nat.le_add_left _ m) i trivial hi (Nat.le_add_left _ _)
  exact (hw m _ (Nat.le_add_right m _)).advances hagrees.advances

theorem levels_advance (hi : i ≤ tokens.length) (m : Nat) : ∀ w ∈ levels tokens m, Advances tokens w i := by
  have hop : AllAlong tokens tokens.length 4 (operand tokens) (Reader.operand tokens.length) :=
    allAlong_operand (Nat.le_refl _)
  have hexpr : AllAlong tokens tokens.length 10 (expr tokens) (Reader.expr tokens.length) :=
    allAlong_bounded_expr (Nat.le_refl _)
  have hterm := (allAlong_term hexpr hop).mono (Nat.le_succ _)
  simp only [levels, List.forall_mem_cons, List.not_mem_nil, false_imp_iff, implies_true, and_true]
  exact ⟨hexpr.advances (fun _ _ hle => (deeper tokens hle).expr) hi m,
    (allAlong_sum hop (Nat.le_refl _)).advances (fun _ _ hle => (deeper tokens hle).sum) hi m,
    (allAlong_product hop (Nat.le_refl _)).advances (fun _ _ hle => (deeper tokens hle).product) hi m,
    (allAlong_comparison hop).advances (fun _ _ hle => (deeper tokens hle).comparison) hi m,
    hop.advances (fun _ _ hle => (deeper tokens hle).operand) hi m,
    hterm.advances (fun _ _ hle => (deeper tokens hle).term) hi m⟩

theorem items_advance (hi : i ≤ tokens.length) (m : Nat) : Advances tokens (items tokens m) i := by
  have hitems : AllAlong tokens tokens.length 11 (items tokens) _ :=
    allAlong_items (allAlong_bounded_expr (Nat.le_refl _)) (Nat.le_refl _)
  exact hitems.advances (fun _ _ hle => (deeper tokens hle).items) hi m

theorem agrees_statement (hlt : i < tokens.length) (hm : 10 * (tokens.length - i) + 10 ≤ m) :
    Agrees tokens (i + 1) (statement tokens m i) (Reader.statement tokens.length (cursorAt tokens i)) := by
  obtain ⟨b, hb⟩ : ∃ b, tokens.length = i + (b + 1) := ⟨tokens.length - i - 1, by omega⟩
  have halong : Along tokens (· < tokens.length) (b + 1) 1 (statement tokens m)
      (Reader.statement tokens.length) := along_statement (by omega) (by omega)
  exact halong i hlt (Nat.le_of_lt hlt) (by omega)

theorem statement_advances (hlt : i < tokens.length) (m : Nat) :
    Advances tokens (statement tokens m) i := by
  have hagrees := agrees_statement (m := m + (10 * (tokens.length - i) + 10)) hlt (Nat.le_add_left _ m)
  exact (endsAs_statement (Nat.le_add_right m _)).advances hagrees.advances

theorem statement_settled {s : Statement} (hlt : i < tokens.length)
    (hread : statement tokens m i = .ok (s, j))
    (hm : depth tokens ≤ m') : statement tokens m' i = .ok (s, j) := by
  have hdepth : 10 * tokens.length + 11 ≤ m' := hm
  have hended := (agrees_statement (m := m') hlt (by omega)).ended
  obtain hle | hle := Nat.le_total m m'
  · have hends : EndsAs (statement tokens m) (statement tokens m') := endsAs_statement hle
    obtain hw | hw := hends i
    · rw [hread] at hw
      cases hw
    · exact hw.symm.trans hread
  · have hends : EndsAs (statement tokens m') (statement tokens m) := endsAs_statement hle
    obtain hw | hw := hends i
    · exact absurd hw hended
    · exact hw.trans hread

end Readers

/-- One span of the tokens from position `start` on for each of the statements, which are read in order,
each from the first token of its span to the last. -/
structure Spans (tokens : List Token) (start : Nat) (sts : List Statement) (spans : List (List Token)) :
    Prop where
  joined : spans.flatten = tokens.drop start
  paired : spans.length = sts.length
  filled : ∀ span ∈ spans, span ≠ []
  read : ∀ k s m, sts[k]? = some s → depth tokens ≤ m →
    statement tokens m (start + (spans.take k).flatten.length) =
      .ok (s, start + (spans.take (k + 1)).flatten.length)

section Runs

variable {tokens : List Token} {i j m : Nat} {s : Statement} {sts : List Statement}
  {spans : List (List Token)}

theorem spans_nil (tokens : List Token) : Spans tokens tokens.length [] [] where
  joined := List.drop_length.symm
  paired := rfl
  filled := by simp only [List.not_mem_nil, false_imp_iff, implies_true]
  read := by simp only [List.getElem?_nil, reduceCtorEq, false_imp_iff, implies_true]

theorem Spans.cons (h : Spans tokens j sts spans)
    (hread : ∀ m, depth tokens ≤ m → statement tokens m i = .ok (s, j)) (hlt : i < j)
    (hj : j ≤ tokens.length) : Spans tokens i (s :: sts) ((tokens.drop i).take (j - i) :: spans) := by
  have hlength : ((tokens.drop i).take (j - i)).length = j - i := by
    rw [List.length_take, List.length_drop]
    omega
  have hplace (k : Nat) :
      i + (((tokens.drop i).take (j - i) :: spans).take (k + 1)).flatten.length =
        j + (spans.take k).flatten.length := by
    rw [List.take_succ_cons, List.flatten_cons, List.length_append, hlength]
    omega
  refine ⟨?_, congrArg (· + 1) h.paired, ?_, ?_⟩
  · have hrest : tokens.drop j = (tokens.drop i).drop (j - i) := by
      rw [List.drop_drop, Nat.add_sub_cancel' (Nat.le_of_lt hlt)]
    rw [List.flatten_cons, h.joined, hrest, List.take_append_drop]
  · refine List.forall_mem_cons.mpr ⟨fun hnil => ?_, h.filled⟩
    rw [hnil, List.length_nil] at hlength
    omega
  · intro k s' m hs hm
    rw [hplace]
    cases k with
    | zero =>
      cases hs
      exact hread m hm
    | succ k =>
      rw [hplace]
      exact h.read k s' m hs hm

/-- Statements are read at the end of the tokens, where there are none, or one is read and then the others
from the place behind it. -/
theorem statements_cases (hi : i ≤ tokens.length) (h : statements tokens (m + 1) i = .ok (sts, j)) :
    (i = tokens.length ∧ sts = [] ∧ j = i) ∨
      ∃ s k more, sts = s :: more ∧ statement tokens m i = .ok (s, k) ∧ i < k ∧ k ≤ tokens.length ∧
        statements tokens m k = .ok (more, j) := by
  by_cases hlt : i < tokens.length
  · rw [statements_of_lt hlt] at h
    obtain ⟨s, k, hs, h⟩ := bind_eq_ok_iff.mp h
    obtain ⟨more, j', hmore, h⟩ := bind_eq_ok_iff.mp h
    cases h
    obtain ⟨hik, hk⟩ := (statement_advances hlt m).advanced s k hs
    exact .inr ⟨s, k, more, rfl, hs, hik, hk, hmore⟩
  · have hend : tokens.length ≤ i := Nat.not_lt.mp hlt
    rw [statements_end hend] at h
    cases h
    exact .inl ⟨Nat.le_antisymm hi hend, rfl, rfl⟩

/-- Statements that are read from position `i` on come to the end of the tokens, in spans. -/
theorem exists_spans (hi : i ≤ tokens.length) (h : statements tokens m i = .ok (sts, j)) :
    j = tokens.length ∧ ∃ spans, Spans tokens i sts spans := by
  induction sts generalizing i m with
  | nil =>
    cases m with
    | zero => cases h
    | succ m =>
      obtain ⟨rfl, -, rfl⟩ | ⟨s, k, more, hsts, -⟩ := statements_cases hi h
      · exact ⟨rfl, [], spans_nil tokens⟩
      · cases hsts
  | cons s sts ih =>
    cases m with
    | zero => cases h
    | succ m =>
      obtain ⟨-, hsts, -⟩ | ⟨s', k, more, hsts, hread, hik, hk, hmore⟩ := statements_cases hi h
      · cases hsts
      · cases hsts
        obtain ⟨hj, spans, hspans⟩ := ih hk hmore
        have hdeep (M : Nat) (hM : depth tokens ≤ M) : statement tokens M i = .ok (s, k) :=
          statement_settled (Nat.lt_of_lt_of_le hik hk) hread hM
        exact ⟨hj, _, hspans.cons hdeep hik hk⟩

/-- Read from the first token on, the statements are those that are read from what is left. -/
theorem statements_eq_readStatements (hm : depth tokens ≤ m) :
    statements tokens m 0 = match readStatements tokens with
      | .ok sts => .ok (sts, tokens.length)
      | .error e => .error (.fault e) := by
  have halong : Along tokens (fun _ => True) tokens.length 0 (statements tokens m)
      (Reader.statements tokens.length) := along_statements (Nat.le_refl _) hm
  have hagrees := halong 0 trivial (Nat.zero_le _) (Nat.le_add_left _ _)
  change Agrees tokens 0 _ (Reader.statements tokens.length ⟨0, tokens⟩) at hagrees
  rw [readStatements]
  generalize hw : statements tokens m 0 = o at hagrees
  generalize Reader.statements tokens.length ⟨0, tokens⟩ = x at hagrees
  cases hagrees with
  | error => rfl
  | ok hleast hj =>
    obtain ⟨rfl, -⟩ := exists_spans (Nat.zero_le _) hw
    rfl

theorem program_eq_ofTokens (hm : depth tokens ≤ m) :
    program tokens m 0 = match Program.ofTokens tokens with
      | .ok p => .ok (p, tokens.length)
      | .error e => .error (.fault e) := by
  have hread := statements_eq_readStatements hm
  rw [program, Program.ofTokens]
  cases hsts : readStatements tokens with
  | error e =>
    rw [hsts] at hread
    exact bind_of_error hread
  | ok sts =>
    rw [hsts] at hread
    rw [bind_of_ok hread]
    change (match Program.ofStatements sts with
      | .ok p => pure p
      | .error e => throw (.fault e) : Indexed Program) tokens.length =
      match Program.ofStatements sts with
      | .ok p => Except.ok (p, tokens.length)
      | .error e => .error (Halt.fault e)
    cases Program.ofStatements sts <;> rfl

theorem exists_spans_of_ofTokens {p : Program} (h : Program.ofTokens tokens = .ok p) :
    ∃ spans, Spans tokens 0 p.statements spans := by
  have hread := statements_eq_readStatements (Nat.le_refl (depth tokens))
  rw [Program.ofTokens] at h
  cases hsts : readStatements tokens with
  | error e =>
    rw [hsts] at h
    cases h
  | ok sts =>
    rw [hsts] at h hread
    change (LabelTable.collect [] 0 sts).map (⟨sts, ·⟩) = .ok p at h
    cases hlabels : LabelTable.collect [] 0 sts with
    | error e =>
      rw [hlabels] at h
      cases h
    | ok labels =>
      rw [hlabels] at h
      cases h
      exact (exists_spans (Nat.zero_le _) hread).2

end Runs

/-- For any tokens, reading by position comes to an end, with calls nested to a depth that grows with the
number of tokens, and does what compilation does. At any depth, reading a statement or an expression asks for
no token past the last and leaves the place behind at least one token more. The tokens of a program are, in
order, one span for each of its statements. -/
theorem reads_every_token_once (tokens : List Token) :
    (∀ m, depth tokens ≤ m → program tokens m 0 = match Program.ofTokens tokens with
      | .ok p => .ok (p, tokens.length)
      | .error e => .error (.fault e)) ∧
    (∀ m, ∀ i ≤ tokens.length,
      (∀ w ∈ levels tokens m, Advances tokens w i) ∧ Advances tokens (items tokens m) i) ∧
    (∀ m, ∀ i < tokens.length, Advances tokens (statement tokens m) i) ∧
    ∀ p, Program.ofTokens tokens = .ok p → ∃ spans, Spans tokens 0 p.statements spans :=
  ⟨fun _ hm => program_eq_ofTokens hm, fun m _ hi => ⟨levels_advance hi m, items_advance hi m⟩,
    fun m _ hlt => statement_advances hlt m, fun _ h => exists_spans_of_ofTokens h⟩

end PocketBasic.Indexed
