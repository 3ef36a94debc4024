import PocketBasic.Proofs.Program.Along
import PocketBasic.Proofs.Program.FollowingExpr

/-!
# Expressions by position

The levels of an expression read by position go along with the bounded readers, as long as the bounds are not
below the number of tokens left. The induction is on that number, which every operator, comma or parenthesis
lowers. Between two tokens calls are nested at most ten deep, so ten for each token left are enough, and some
more for the levels of the next operand.
-/

namespace PocketBasic.Indexed

/-- With at most `N` tokens left, and calls nested at least `c` deep and ten for each of them, the readers
agree, and they read a token. -/
def AllAlong {α : Type} (tokens : List Token) (N c : Nat) (w : Nat → Indexed α) (r : Reader α) : Prop :=
  ∀ (P : Nat → Prop) (b m : Nat), b ≤ N → 10 * b + c ≤ m → Along tokens P b 1 (w m) r

section Levels

variable {tokens : List Token} {b c m n N : Nat} {operand' expr' : Reader Expr}

theorem AllAlong.mono {α : Type} {w : Nat → Indexed α} {r : Reader α} (h : AllAlong tokens N c w r)
    (hb : b ≤ N) : AllAlong tokens b c w r :=
  fun P a m ha => h P a m (Nat.le_trans ha hb)

theorem along_chain {op? : Lexeme → Option BinaryOp} {operand : Nat → Indexed Expr}
    {from' : Nat → Expr → Indexed Expr}
    (hfrom : ∀ m left, from' (m + 1) left = do
      match ← acceptSameLine? tokens op? with
      | none => pure left
      | some (t, op) => do
        let right ← operand m
        from' m (.binary t.line op left right))
    (hop : AllAlong tokens N c operand operand') (hN : b ≤ N) (hn : b ≤ n) (hm : 10 * b + c < m)
    (left : Expr) :
    Along tokens Started b 0 (from' m left) (Reader.leftChain op? operand' n left) := by
  obtain ⟨m, rfl⟩ := Nat.exists_eq_add_one.mpr (Nat.zero_lt_of_lt hm)
  induction b generalizing m n left with
  | zero =>
    refine along_of_rests ?_ (Reader.rests_leftChain op? operand' n left)
    rw [hfrom]
    exact rests_acceptSameLine fun _ _ _ => rfl
  | succ b ih =>
    obtain ⟨n, rfl⟩ := Nat.exists_eq_add_of_lt hn
    obtain ⟨k, rfl⟩ : ∃ k, m = k + 1 := Nat.exists_eq_add_one.mpr (by omega)
    rw [hfrom]
    refine along_acceptSameLine (along_pure left) fun t op => along_currentLine (Along.behind ?_)
    refine along_bind_later (hop _ b (k + 1) (by omega) (by omega)).weaken fun right => ?_
    exact ih (by omega) (by omega) (.binary t.line op left right) k (by omega)

theorem allAlong_list {α : Type} {item : Nat → Indexed α} {item' : Reader α}
    {list : Nat → Indexed (List α)}
    (hlist : ∀ m, list (m + 1) = do
      let x ← item m
      match ← acceptSameLine? tokens Lexeme.comma? with
      | none => pure [x]
      | some _ => do
        let xs ← list m
        pure (x :: xs))
    (hitem : AllAlong tokens N c item item') (hn : N ≤ n) :
    AllAlong tokens N (c + 1) list (Reader.commaList item' n) := by
  intro P b m hN hm
  obtain ⟨m, rfl⟩ : ∃ k, m = k + 1 := Nat.exists_eq_add_one.mpr (by omega)
  have hb : b ≤ n := Nat.le_trans hN hn
  clear hn
  induction b generalizing m n P with
  | zero =>
    obtain ⟨tail, hread, hrests⟩ := Reader.rests_commaList item' n
    rw [hlist, hread]
    refine along_bind_first (hitem P 0 m hN (by omega)) fun x => along_of_rests ?_ (hrests x)
    exact rests_acceptSameLine fun _ _ _ => rfl
  | succ b ih =>
    obtain ⟨n, rfl⟩ := Nat.exists_eq_add_of_lt hb
    obtain ⟨k, rfl⟩ : ∃ k, m = k + 1 := Nat.exists_eq_add_one.mpr (by omega)
    rw [hlist]
    refine along_bind_first (hitem P (b + 1) (k + 1) hN (by omega)) fun x => ?_
    refine along_acceptSameLine (along_pure [x]) fun t _ => Along.behind ?_
    have hmore := ih (n := b + n) Started (by omega) k (by omega) (by omega)
    exact along_bind_later (hmore.mono (by omega)).weaken fun xs => along_pure (x :: xs)

section Operators

variable (hop : AllAlong tokens N 4 (operand tokens) operand')

include hop

theorem allAlong_comparison : AllAlong tokens N 5 (comparison tokens) (Reader.comparison operand') := by
  intro P b m hN hm
  obtain ⟨m, rfl⟩ : ∃ k, m = k + 1 := Nat.exists_eq_add_one.mpr (by omega)
  rw [comparison]
  refine along_bind_first (hop P b m hN (by omega)) fun left => ?_
  refine along_acceptSameLine (along_pure left) fun t sign => along_currentLine (Along.behind ?_)
  have hright (op : BinaryOp) : Along tokens Started (b - 1 - 1) 0
      (operand tokens m >>= fun right => pure (Expr.binary t.line op left right))
      (operand' >>= fun right => pure (Expr.binary t.line op left right)) :=
    along_bind_later (hop _ (b - 1 - 1) m (by omega) (by omega)).weaken fun right =>
      along_pure (Expr.binary t.line op left right)
  cases sign with
  | bang =>
    change Along tokens Started _ 0 ((expect tokens Lexeme.equals? "\"=\"" >>= fun _ => pure BinaryOp.ne) >>=
      fun op => operand tokens m >>= fun right => pure (Expr.binary t.line op left right)) _
    rw [bind_assoc]
    exact along_bind_later (along_token _ _) fun _ => hright .ne
  | equals => exact hright .eq
  | greater => exact hright .gt
  | less => exact hright .lt
  | greaterEquals => exact hright .ge
  | lessEquals => exact hright .le

theorem allAlong_product (hn : N ≤ n) : AllAlong tokens N 7 (product tokens) (Reader.product operand' n) := by
  intro P b m hN hm
  obtain ⟨m, rfl⟩ : ∃ k, m = k + 1 := Nat.exists_eq_add_one.mpr (by omega)
  have hcomparison := allAlong_comparison hop
  rw [product]
  refine along_bind_first (hcomparison P b m hN (by omega)) fun left => ?_
  exact along_chain (fun _ _ => rfl) hcomparison (by omega) (by omega) (by omega) left

theorem allAlong_sum (hn : N ≤ n) : AllAlong tokens N 9 (sum tokens) (Reader.sum operand' n) := by
  intro P b m hN hm
  obtain ⟨m, rfl⟩ : ∃ k, m = k + 1 := Nat.exists_eq_add_one.mpr (by omega)
  have hproduct := allAlong_product hop hn
  rw [sum]
  refine along_bind_first (hproduct P b m hN (by omega)) fun left => ?_
  exact along_chain (fun _ _ => rfl) hproduct (by omega) (by omega) (by omega) left

end Operators

theorem along_target {w : Indexed Expr} {r : Reader Expr} {t : Token}
    (h : Along tokens (fun _ => True) b 1 w r) (value : Expr) :
    Along tokens (Behind tokens t) b 0
      (do
        let target ← get
        match ← w with
        | .name line name => pure (Expr.assign t.line value line name)
        | _ => do
          set target
          unexpected tokens "Identifier")
      (fun c => match r c with
        | .error e => .error e
        | .ok (.name line target, c') => Except.ok (Expr.assign c.line value line target, c')
        | .ok _ => .error (c.unexpected "Identifier")) := by
  rintro i ⟨k, rfl, ht⟩ hi hle
  have hread := h (k + 1) trivial hi hle
  have hline : (cursorAt tokens (k + 1)).line = t.line := by rw [cursorAt_succ ht]
  rw [bind_of_ok (position_eq (k + 1))]
  dsimp only
  rw [hline]
  generalize hw : w (k + 1) = o at hread
  generalize r (cursorAt tokens (k + 1)) = x at hread
  cases hread with
  | error =>
    rw [bind_of_error hw]
    exact .error
  | @ok y j hleast hj =>
    rw [bind_of_ok hw]
    cases y with
    | name line name => exact .ok (Nat.le_of_succ_le hleast) hj
    | _ =>
      -- The fault is told from the place behind the arrow, to which the reader goes back.
      have hback := unexpected_eq (α := Expr) hi "Identifier"
      change Agrees tokens (k + 1 + 0) (unexpected tokens "Identifier" (k + 1)) _
      rw [hback]
      exact .error

theorem allAlong_expr (hop : AllAlong tokens N 4 (operand tokens) operand') (hn : N ≤ n) :
    AllAlong tokens N 10 (expr tokens) (Reader.assignment operand' n) := by
  intro P b m hN hm
  obtain ⟨m, rfl⟩ : ∃ k, m = k + 1 := Nat.exists_eq_add_one.mpr (by omega)
  have hb : b ≤ n := Nat.le_trans hN hn
  clear hn
  induction b generalizing m n P with
  | zero =>
    obtain ⟨tail, hread, hrests⟩ := Reader.rests_assignment operand' n
    rw [expr, hread]
    have hsum := allAlong_sum (hop.mono hN) hb
    refine along_bind_first (hsum P 0 m (Nat.le_refl 0) (by omega)) fun x => along_of_rests ?_ (hrests x)
    exact rests_acceptSameLine fun _ _ _ => rfl
  | succ b ih =>
    obtain ⟨n, rfl⟩ := Nat.exists_eq_add_of_lt hb
    obtain ⟨k, rfl⟩ : ∃ k, m = k + 1 := Nat.exists_eq_add_one.mpr (by omega)
    rw [expr]
    have hsum := allAlong_sum (hop.mono hN) hb
    refine along_bind_first (hsum P (b + 1) (k + 1) (Nat.le_refl _) (by omega)) fun value => ?_
    refine along_acceptSameLine (along_pure value) fun t _ => ?_
    have htarget := ih (n := b + n) (fun _ => True) (by omega) k (by omega) (by omega)
    exact along_target (htarget.mono (by omega)) value

theorem allAlong_term (hexpr : AllAlong tokens N 10 (expr tokens) expr')
    (hop : AllAlong tokens N 4 (operand tokens) operand') :
    AllAlong tokens (N + 1) 1 (term tokens) (Reader.term expr' operand') := by
  intro P b m hN hm i _ hi hle
  obtain ⟨m, rfl⟩ : ∃ k, m = k + 1 := Nat.exists_eq_add_one.mpr (by omega)
  rw [term]
  cases ht : tokens[i]? with
  | none =>
    have hend := List.getElem?_eq_none_iff.mp ht
    rw [bind_of_ok (atEnd_eq_true hend)]
    change Agrees tokens (i + 1) (unexpected tokens "expression" i) _
    rw [unexpected_eq hi, cursorAt_of_le hend]
    exact .error
  | some t =>
    obtain ⟨hlt, -⟩ := List.getElem?_eq_some_iff.mp ht
    obtain ⟨b, rfl⟩ : ∃ k, b = k + 1 := Nat.exists_eq_add_one.mpr (by omega)
    rw [bind_of_ok (atEnd_eq_false ht), if_neg Bool.false_ne_true, bind_of_ok (current_eq ht)]
    have hrefused : Agrees tokens (i + 1) (unexpected (α := Expr) tokens "expression" i)
        (.error ((cursorAt tokens i).unexpected "expression")) := by
      rw [unexpected_eq hi]
      exact .error
    rw [cursorAt_of_getElem? ht] at hrefused ⊢
    obtain ⟨lexeme, l, col⟩ := t
    cases lexeme with
    | number spelling value => exact agrees_next ht (along_pure (Expr.number l value)) hle
    | string text => exact agrees_next ht (along_pure (Expr.text l text)) hle
    | identifier name => exact agrees_next ht (along_pure (Expr.name l name)) hle
    | openParen =>
      have hinner : Along tokens Started b 0
          (expr tokens m >>= fun x => closeParen tokens >>= fun _ => pure x)
          (expr' >>= fun x => Reader.closeParen >>= fun _ => pure x) :=
        along_bind_later (hexpr _ b m (by omega) (by omega)).weaken fun x =>
          along_bind_later (along_token _ _) fun _ => along_pure x
      exact agrees_next ht hinner.behind hle
    | operator sign =>
      cases sign with
      | minus =>
        have hnegated : Along tokens Started b 0
            (operand tokens m >>= fun x => pure (Expr.binary l .sub (.number l 0) x))
            (operand' >>= fun x => pure (Expr.binary l .sub (.number l 0) x)) :=
          along_bind_later (hop _ b m (by omega) (by omega)).weaken fun x =>
            along_pure (Expr.binary l .sub (.number l 0) x)
        exact agrees_next ht hnegated.behind hle
      | _ => exact hrefused
    | _ => exact hrefused

theorem allAlong_items (hexpr : AllAlong tokens N 10 (expr tokens) expr') (hn : N ≤ n) :
    AllAlong tokens N 11 (items tokens) (Reader.commaList expr' n) :=
  allAlong_list (fun _ => rfl) hexpr hn

theorem along_arguments (hexpr : AllAlong tokens N 10 (expr tokens) expr') (hN : b ≤ N) (hn : N ≤ n)
    (hm : 10 * b + 12 ≤ m) :
    Along tokens Started b 0 (arguments tokens m) (Reader.arguments expr' n) := by
  obtain ⟨m, rfl⟩ : ∃ k, m = k + 1 := Nat.exists_eq_add_one.mpr (by omega)
  rw [arguments]
  refine along_accept ?_ fun t _ => along_pure []
  refine along_bind_later (allAlong_items hexpr hn _ b m hN (by omega)).weaken fun args => ?_
  exact along_bind_later (along_token _ _) fun _ => along_pure args

theorem along_calls (hexpr : AllAlong tokens N 10 (expr tokens) expr') (hN : b ≤ N) (hn : b ≤ n)
    (hm : 10 * b + 3 ≤ m) (x : Expr) :
    Along tokens Started b 0 (callsOf tokens m x) (Reader.calls expr' n x) := by
  induction b generalizing m n x with
  | zero =>
    obtain ⟨m, rfl⟩ : ∃ k, m = k + 1 := Nat.exists_eq_add_one.mpr (by omega)
    refine along_of_rests ?_ (Reader.rests_calls expr' n x)
    rw [callsOf]
    exact rests_acceptSameLine fun _ _ _ => rfl
  | succ b ih =>
    obtain ⟨n, rfl⟩ := Nat.exists_eq_add_of_lt hn
    obtain ⟨m, rfl⟩ : ∃ k, m = k + 1 := Nat.exists_eq_add_one.mpr (by omega)
    rw [callsOf]
    refine along_acceptSameLine (along_pure x) fun t _ => along_currentLine (Along.behind ?_)
    have harguments : Along tokens Started b 0 (arguments tokens m) (Reader.arguments expr' (b + n)) :=
      along_arguments (hexpr.mono (Nat.le_of_succ_le hN)) (Nat.le_refl b) (by omega) (by omega)
    exact along_bind_later harguments fun args => ih (by omega) (by omega) (by omega) (.call t.line x args)

theorem allAlong_operand_end (n : Nat) : AllAlong tokens 0 4 (operand tokens) (Reader.operand n) := by
  intro P b m hN hm i _ hi hle
  have hend : tokens.length ≤ i := by omega
  obtain ⟨m, rfl⟩ : ∃ k, m = k + 2 := ⟨m - 2, by omega⟩
  have hterm : term tokens (m + 1) i = .error (.fault ((cursorAt tokens i).unexpected "expression")) := by
    rw [term, bind_of_ok (atEnd_eq_true hend)]
    exact unexpected_eq hi "expression"
  rw [operand, bind_of_error hterm, cursorAt_of_le hend]
  cases n <;> exact .error

theorem allAlong_operand (hn : N ≤ n) : AllAlong tokens N 4 (operand tokens) (Reader.operand n) := by
  induction N generalizing n with
  | zero => exact allAlong_operand_end n
  | succ N ih =>
    obtain ⟨n, rfl⟩ := Nat.exists_eq_add_of_lt hn
    have hop : AllAlong tokens N 4 (operand tokens) (Reader.operand (N + n)) := ih (by omega)
    have hexpr : AllAlong tokens N 10 (expr tokens) (Reader.assignment (Reader.operand (N + n)) (N + n)) :=
      allAlong_expr hop (by omega)
    intro P b m hN hm
    obtain ⟨m, rfl⟩ : ∃ k, m = k + 1 := Nat.exists_eq_add_one.mpr (by omega)
    rw [operand]
    refine along_bind_first (allAlong_term hexpr hop P b m hN (by omega)) fun x => ?_
    exact along_calls hexpr (by omega) (by omega) (by omega) x

theorem allAlong_bounded_expr (hn : N ≤ n) : AllAlong tokens N 10 (expr tokens) (Reader.expr n) :=
  allAlong_expr (allAlong_operand hn) hn

end Levels

end PocketBasic.Indexed
