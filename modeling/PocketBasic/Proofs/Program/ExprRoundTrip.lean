import PocketBasic.Proofs.Program.OperandRoundTrip

/-!
# Written expressions are read back

Each kind of expression is read at its own level from the lexemes that `Expr.lexemes` gives for it, if
its parts are read at theirs. So every expression is read back, in any place, as the same tree.
-/

namespace PocketBasic

open Reader

variable {l line N : Nat} {xs ys : List Lexeme} {x left right : Expr} {op : BinaryOp}

theorem reads_compared {item : Reader Expr} {F : Option Lexeme → Prop}
    (hright : Reads line line item ys F (pure right)) :
    Reads line line (do
      let op ← pure op
      let right ← item
      pure (Expr.binary line op left right)) ys F (pure (Expr.binary line op left right)) := by
  change Reads line line (item >>= fun right => pure (Expr.binary line op left right)) ys F _
  exact hright.result _

theorem readsAt_comparison (hop : op.level = .comparison) (hleft : ReadsAt line .operand xs left)
    (hright : ReadsAt line .operand ys right) (hx : 0 < xs.length) (hy : 0 < ys.length) :
    ReadsAt line .comparison (xs ++ op.lexemes ++ ys) (.binary line op left right) := by
  intro l N hN
  simp only [List.length_append] at hN
  have hl : Reads l line (operand N) xs Level.operand.Ends (pure left) :=
    hleft.operand_complete (by omega) hx
  have hr : Reads line line (operand N) ys Level.comparison.Ends (pure right) :=
    (hright.operand_complete (by omega) hy).mono fun _ ho => ho.tighten (by decide)
  have hsign (sign : ComparisonSign) : Reads line line (acceptSameLine? Lexeme.comparison?)
      [.comparison sign] Anything (pure (some sign)) := reads_acceptSameLine rfl
  have hsecond : Reads line line (expect Lexeme.equals? "\"=\"") [.comparison .equals] Anything
      (pure ()) := reads_expect _ rfl
  have hline (f : Nat → Reader Expr) : Reads line line (currentLine >>= f) [] Anything (f line) :=
    reads_currentLine.result f
  have hends (sign : ComparisonSign) : ∀ o, Level.comparison.Ends o →
      Level.operand.Ends (some (.comparison sign)) := fun _ _ => ends_comparison sign
  rw [List.append_assoc]
  cases op with
  | eq =>
    refine (hl.result _).trans (((hsign .equals).result _).followed ?_) (hends _)
    exact (hline _).followed (reads_compared hr)
  | gt =>
    refine (hl.result _).trans (((hsign .greater).result _).followed ?_) (hends _)
    exact (hline _).followed (reads_compared hr)
  | lt =>
    refine (hl.result _).trans (((hsign .less).result _).followed ?_) (hends _)
    exact (hline _).followed (reads_compared hr)
  | ge =>
    refine (hl.result _).trans (((hsign .greaterEquals).result _).followed ?_) (hends _)
    exact (hline _).followed (reads_compared hr)
  | le =>
    refine (hl.result _).trans (((hsign .lessEquals).result _).followed ?_) (hends _)
    exact (hline _).followed (reads_compared hr)
  | ne =>
    refine (hl.result _).trans (((hsign .bang).result _).followed ?_) (hends _)
    exact (hline _).followed ((hsecond.result _).followed (reads_compared hr))
  | add => cases hop
  | sub => cases hop
  | mul => cases hop
  | div => cases hop
  | mod => cases hop
  | and => cases hop
  | or => cases hop

theorem productOp_lexemes (hop : op.level = .product) :
    ∃ y, op.lexemes = [y] ∧ y.productOp? = some op ∧ Level.comparison.Ends (some y) := by
  cases op <;> cases hop <;>
    exact ⟨_, rfl, rfl, ⟨rfl, fun _ => rfl, fun h => absurd h (by decide), fun _ => rfl, fun _ => rfl⟩⟩

theorem toLower_and : "and".toLower = "and" := by decide +kernel

theorem toLower_or : "or".toLower = "or" := by decide +kernel

theorem sumOp_lexemes (hop : op.level = .sum) :
    ∃ y, op.lexemes = [y] ∧ y.sumOp? = some op ∧ Level.product.Ends (some y) := by
  have hends (y : Lexeme) (h₁ : y.openParen? = none) (h₂ : y.comparison? = none)
      (h₃ : y.productOp? = none) : Level.product.Ends (some y) :=
    ⟨h₁, fun _ => h₂, fun _ => h₃, fun h => absurd h (by decide), fun h => absurd h (by decide)⟩
  cases op with
  | add => exact ⟨_, rfl, rfl, hends _ rfl rfl rfl⟩
  | sub => exact ⟨_, rfl, rfl, hends _ rfl rfl rfl⟩
  | and =>
    refine ⟨_, rfl, ?_, hends _ rfl rfl rfl⟩
    rw [Lexeme.sumOp?, toLower_and, if_pos rfl]
  | or =>
    refine ⟨_, rfl, ?_, hends _ rfl rfl rfl⟩
    rw [Lexeme.sumOp?, toLower_or, if_neg (by decide), if_pos rfl]
  | _ => cases hop

theorem readsAt_product (hop : op.level = .product) (hleft : ReadsAt line .product xs left)
    (hright : ReadsAt line .comparison ys right) :
    ReadsAt line .product (xs ++ op.lexemes ++ ys) (.binary line op left right) := by
  intro l N n hN hn
  obtain ⟨y, hy, hproduct, hends⟩ := productOp_lexemes hop
  rw [hy] at hN hn ⊢
  simp only [List.length_append, List.length_singleton] at hN hn ⊢
  obtain ⟨j, hj, hl⟩ := hleft l N n (by omega) (by omega)
  obtain ⟨m, rfl⟩ : ∃ m, j = m + 1 := ⟨j - 1, by omega⟩
  have hr : Reads line line (comparison (operand N)) ys Level.comparison.Ends (pure right) :=
    hright line N (by omega)
  rw [List.append_assoc]
  exact ⟨m, by omega, hl.trans (reads_leftChain_next hproduct hr) fun _ _ => hends⟩

theorem readsAt_sum (hop : op.level = .sum) (hleft : ReadsAt line .sum xs left)
    (hright : ReadsAt line .product ys right) :
    ReadsAt line .sum (xs ++ op.lexemes ++ ys) (.binary line op left right) := by
  intro l N n hN hn
  obtain ⟨y, hy, hsum, hends⟩ := sumOp_lexemes hop
  rw [hy] at hN hn ⊢
  simp only [List.length_append, List.length_singleton] at hN hn ⊢
  obtain ⟨j, hj, hl⟩ := hleft l N n (by omega) (by omega)
  obtain ⟨m, rfl⟩ : ∃ m, j = m + 1 := ⟨j - 1, by omega⟩
  have hr : Reads line line (product (operand N) n) ys Level.product.Ends (pure right) :=
    hright.product_complete (by omega) (by omega)
  rw [List.append_assoc]
  exact ⟨m, by omega, hl.trans (reads_leftChain_next hsum hr) fun _ _ => hends⟩

theorem readsAt_assign (target : String) (hvalue : ReadsAt line .sum xs x) :
    ReadsAt line .assignment (xs ++ [.assignment, .identifier target])
      (.assign line x line target) := by
  intro l N n hN hn
  simp only [List.length_append, List.length_cons, List.length_nil] at hN hn
  obtain ⟨m, rfl⟩ : ∃ m, n = m + 1 := ⟨n - 1, by omega⟩
  have hl : Reads l line (sum (operand N) (m + 1)) xs Level.sum.Ends (pure x) :=
    hvalue.sum_complete (by omega) (by omega)
  have hname : ReadsAt line .assignment [.identifier target] (.name line target) :=
    (readsAt_name target).loosen Nat.one_pos (by decide)
  have htarget : Reads line line (assignment (operand N) m) [.identifier target]
      Level.assignment.Ends (pure (.name line target)) :=
    hname line N m (by simp; omega) (by simp; omega)
  have harrow : Reads line line (acceptSameLine? Lexeme.arrow?) [.assignment] Anything
      (pure (some ())) := reads_acceptSameLine rfl
  refine (hl.result _).trans ((harrow.result _).followed ?_) fun _ _ => ends_arrow
  intro ts rest hts hF
  simp only [htarget ts rest hts hF]
  rfl

/-- The first lexeme of an expression closes nothing, and at the start of a statement it is no
keyword. -/
theorem head?_lexemes (sp : Spelling) (x : Expr) (leading : Bool) (place : Level) :
    ∃ y, (x.lexemes sp leading place).head? = some y ∧ y.closeParen? = none ∧
      (leading = true → ∀ id, y = .identifier id → keywords.contains id.toLower = false) := by
  have hbracketed (xs : List Lexeme) : ∃ y, (bracketed xs).head? = some y ∧ y.closeParen? = none ∧
      (leading = true → ∀ id, y = .identifier id → keywords.contains id.toLower = false) :=
    ⟨.openParen, rfl, rfl, by simp⟩
  induction x generalizing leading place with
  | number line value => exact ⟨_, rfl, rfl, by simp⟩
  | text line value => exact ⟨_, rfl, rfl, by simp⟩
  | name line id =>
    unfold Expr.lexemes bracketedIf
    split
    · exact hbracketed _
    · next hplain =>
      refine ⟨_, rfl, rfl, fun hleading id' hid => ?_⟩
      cases hid
      simpa [hleading] using hplain
  | binary line op left right ihl _ =>
    rcases Nat.lt_or_ge (Expr.binary line op left right).level.rank place.rank with hlt | hle
    · rw [Expr.lexemes_of_lt hlt]
      exact hbracketed _
    · obtain ⟨y, hy, hrest⟩ := ihl leading op.leftLevel hbracketed
      rw [Expr.lexemes_of_le hle, Expr.level, Expr.lexemes_binary]
      refine ⟨y, ?_, hrest⟩
      rw [List.append_assoc, List.head?_append, hy]
      rfl
  | assign line value targetLine target ihv =>
    rcases Nat.lt_or_ge (Expr.assign line value targetLine target).level.rank place.rank with
      hlt | hle
    · rw [Expr.lexemes_of_lt hlt]
      exact hbracketed _
    · obtain ⟨y, hy, hrest⟩ := ihv leading .sum hbracketed
      rw [Expr.lexemes_of_le hle, Expr.level, Expr.lexemes_assign]
      refine ⟨y, ?_, hrest⟩
      rw [List.head?_append, hy]
      rfl
  | call line function args ihf _ =>
    obtain ⟨y, hy, hrest⟩ := ihf leading .operand hbracketed
    refine ⟨y, ?_, hrest⟩
    rw [Expr.lexemes, List.head?_append, hy]
    rfl

theorem length_lexemes_pos (sp : Spelling) (x : Expr) (leading : Bool) (place : Level) :
    0 < (x.lexemes sp leading place).length := by
  obtain ⟨y, hy, -⟩ := head?_lexemes sp x leading place
  exact List.length_pos_of_mem (List.mem_of_head? hy)

/-- An expression that is read at its own level is read in every place. -/
theorem readsAt_place {sp : Spelling} {x x' : Expr}
    (h : ∀ leading, ReadsAt line x.level (x.lexemes sp leading x.level) x') (leading : Bool)
    (place : Level) : ReadsAt line place (x.lexemes sp leading place) x' := by
  have hbare (leading : Bool) {place : Level} (hle : place.rank ≤ x.level.rank) :
      ReadsAt line place (x.lexemes sp leading place) x' := by
    rw [Expr.lexemes_of_le hle]
    exact (h leading).loosen (length_lexemes_pos sp x leading x.level) hle
  rcases Nat.lt_or_ge x.level.rank place.rank with hlt | hle
  · rw [Expr.lexemes_of_lt hlt]
    have hinside : ReadsAt line .assignment (x.lexemes sp false .assignment) x' :=
      hbare false (Nat.zero_le _)
    have hrank : place.rank ≤ Level.operand.rank := by
      cases place <;> decide
    exact (readsAt_bracketed hinside).loosen (Nat.succ_pos _) hrank
  · exact hbare leading hle

theorem readsAt_lexemes (sp : Spelling) (x : Expr) (line : Nat) (leading : Bool) (place : Level) :
    ReadsAt line place (x.lexemes sp leading place) (x.onLine line) := by
  induction x generalizing leading place with
  | number l value =>
    refine readsAt_place (fun _ => ?_) leading place
    exact readsAt_of_term Nat.one_pos fun _ N _ => reads_term_number (expr N) (operand N) _ value
  | text l value =>
    refine readsAt_place (fun _ => ?_) leading place
    exact readsAt_of_term Nat.one_pos fun _ N _ => reads_term_text (expr N) (operand N) value
  | name l id =>
    refine readsAt_place (fun leading => ?_) leading place
    have hname : ReadsAt line .operand [.identifier id] (.name line id) := readsAt_name id
    unfold Expr.lexemes bracketedIf
    split
    · exact readsAt_bracketed (hname.loosen Nat.one_pos (by decide))
    · exact hname
  | binary l op left right ihl ihr =>
    refine readsAt_place (fun leading => ?_) leading place
    have hl := ihl leading op.leftLevel
    have hr := ihr false op.rightLevel
    have hposl := length_lexemes_pos sp left leading op.leftLevel
    have hposr := length_lexemes_pos sp right false op.rightLevel
    rw [Expr.level, Expr.lexemes_binary]
    cases hop : op.level with
    | sum =>
      have hleft : op.leftLevel = .sum := by rw [BinaryOp.leftLevel, hop]
      have hright : op.rightLevel = .product := by rw [BinaryOp.rightLevel, hop]
      rw [hleft] at hl ⊢
      rw [hright] at hr ⊢
      exact readsAt_sum hop hl hr
    | product =>
      have hleft : op.leftLevel = .product := by rw [BinaryOp.leftLevel, hop]
      have hright : op.rightLevel = .comparison := by rw [BinaryOp.rightLevel, hop]
      rw [hleft] at hl ⊢
      rw [hright] at hr ⊢
      exact readsAt_product hop hl hr
    | comparison =>
      have hleft : op.leftLevel = .operand := by rw [BinaryOp.leftLevel, hop]
      have hright : op.rightLevel = .operand := by rw [BinaryOp.rightLevel, hop]
      rw [hleft] at hl hposl ⊢
      rw [hright] at hr hposr ⊢
      exact readsAt_comparison hop hl hr hposl hposr
    | assignment => cases op <;> cases hop
    | operand => cases op <;> cases hop
  | assign l value targetLine target ihv =>
    refine readsAt_place (fun leading => ?_) leading place
    rw [Expr.level, Expr.lexemes_assign]
    exact readsAt_assign target (ihv leading .sum)
  | call l function args ihf ihargs =>
    refine readsAt_place (fun leading => ?_) leading place
    have hf := ihf leading .operand
    rw [Expr.lexemes, Expr.lexemesEach_eq_map, Expr.onLine, Expr.onLineEach_eq_map]
    refine readsAt_call hf (length_lexemes_pos sp function leading .operand) ?_ ?_
    · exact fun a ha => ihargs a ha false .assignment
    · intro a _
      obtain ⟨y, hy, hclosed, -⟩ := head?_lexemes sp a false .assignment
      exact ⟨y, hy, hclosed⟩

end PocketBasic
