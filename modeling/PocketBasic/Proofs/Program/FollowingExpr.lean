import PocketBasic.Proofs.Program.Following

/-!
# Expressions before more tokens

The levels of an expression, from chains of operators down to terms and calls, read the same before more
tokens on other lines. Each lemma follows the reader it is about. The induction is on the number of tokens
left, which every operator, comma or parenthesis lowers, and not on the bounds of the two readers.
-/

namespace PocketBasic

namespace Reader

section Levels

variable {k b d n m N : Nat} {us : List Token} {operand operand' : Reader Expr}

theorem rests_leftChain (op? : Lexeme → Option BinaryOp) (operand : Reader Expr) (n : Nat)
    (left : Expr) : Rests (leftChain op? operand n left) left := by
  cases n with
  | zero => exact rests_pure left
  | succ n => exact rests_acceptSameLine (rests_pure left)

theorem follows_leftChain (op? : Lexeme → Option BinaryOp)
    (hop : Follows k us N 1 (Expr.shift k) operand operand') (hN : b ≤ N) (hn : b ≤ n) (hm : b ≤ m)
    (left : Expr) : Follows k us b 0 (Expr.shift k) (leftChain op? operand n left)
      (leftChain op? operand' m (left.shift k)) := by
  induction b generalizing n m left with
  | zero =>
    -- No token is left, so it does not matter which of the bounds is used up.
    exact follows_of_rests (rests_leftChain op? operand n left)
      (rests_leftChain op? operand' m (left.shift k))
  | succ b ih =>
    obtain ⟨n, rfl⟩ := Nat.exists_eq_add_of_lt hn
    obtain ⟨m, rfl⟩ := Nat.exists_eq_add_of_lt hm
    refine follows_acceptSameLine (follows_pure _ left) fun op => ?_
    refine follows_bind follows_currentLine fun line => ?_
    refine follows_bind (hop.mono (by omega)).weaken fun right => ?_
    exact ih (by omega) (by omega) (by omega) (.binary line op left right)

/-- A list is an item, and nothing more if no token is left on its line. -/
theorem rests_commaList {α : Type} (item : Reader α) (n : Nat) :
    ∃ tail : α → Reader (List α), commaList item n = item >>= tail ∧ ∀ x, Rests (tail x) [x] := by
  cases n with
  | zero => exact ⟨_, rfl, fun x => rests_pure [x]⟩
  | succ n => exact ⟨_, rfl, fun x => rests_acceptSameLine (rests_pure [x])⟩

theorem follows_commaList {α β : Type} {φ : α → β} {item : Reader α} {item' : Reader β}
    (hitem : Follows k us N d φ item item') (hN : b ≤ N) (hn : b ≤ n) (hm : b ≤ m) :
    Follows k us b d (List.map φ) (commaList item n) (commaList item' m) := by
  induction b generalizing n m with
  | zero =>
    obtain ⟨tail, hlist, hrests⟩ := rests_commaList item n
    obtain ⟨tail', hlist', hrests'⟩ := rests_commaList item' m
    rw [hlist, hlist']
    refine follows_bind (hitem.mono hN) fun x => ?_
    have hend : Follows k us 0 0 (List.map φ) (tail x) (tail' (φ x)) :=
      follows_of_rests (hrests x) (hrests' (φ x))
    exact hend.mono (Nat.sub_le 0 d)
  | succ b ih =>
    obtain ⟨n, rfl⟩ := Nat.exists_eq_add_of_lt hn
    obtain ⟨m, rfl⟩ := Nat.exists_eq_add_of_lt hm
    refine follows_bind (hitem.mono hN) fun x => ?_
    refine follows_acceptSameLine (follows_pure (List.map φ) [x]) fun _ => ?_
    have hmore : Follows k us b 0 (List.map φ) (commaList item (b + n)) (commaList item' (b + m)) :=
      (ih (by omega) (by omega) (by omega)).weaken
    refine follows_bind (hmore.mono (by omega)) fun xs => ?_
    exact follows_pure (List.map φ) (x :: xs)

theorem follows_comparison (hop : Follows k us b 1 (Expr.shift k) operand operand') :
    Follows k us b 1 (Expr.shift k) (comparison operand) (comparison operand') := by
  refine follows_bind hop fun left => ?_
  refine follows_acceptSameLine (follows_pure _ left) fun sign => ?_
  refine follows_bind follows_currentLine fun line => ?_
  have hright (op : BinaryOp) : Follows k us (b - 1 - 1) 0 (Expr.shift k)
      (operand >>= fun right => pure (.binary line op left right))
      (operand' >>= fun right => pure (.binary (line + k) op (left.shift k) right)) :=
    follows_bind (hop.mono (by omega)).weaken fun right =>
      follows_pure (Expr.shift k) (.binary line op left right)
  cases sign with
  | bang =>
    refine follows_bind (follows_expect Lexeme.equals? "\"=\"").weaken fun _ => ?_
    exact hright .ne
  | equals => exact hright .eq
  | greater => exact hright .gt
  | less => exact hright .lt
  | greaterEquals => exact hright .ge
  | lessEquals => exact hright .le

theorem follows_product (hop : Follows k us b 1 (Expr.shift k) operand operand') (hn : b ≤ n)
    (hm : b ≤ m) : Follows k us b 1 (Expr.shift k) (product operand n) (product operand' m) := by
  refine follows_bind (follows_comparison hop) fun left => ?_
  exact follows_leftChain _ (follows_comparison hop) (by omega) (by omega) (by omega) left

theorem follows_sum (hop : Follows k us b 1 (Expr.shift k) operand operand') (hn : b ≤ n)
    (hm : b ≤ m) : Follows k us b 1 (Expr.shift k) (sum operand n) (sum operand' m) := by
  refine follows_bind (follows_product hop hn hm) fun left => ?_
  exact follows_leftChain _ (follows_product hop hn hm) (by omega) (by omega) (by omega) left

/-- An assignment is a sum, and nothing more if no token is left on its line. -/
theorem rests_assignment (operand : Reader Expr) (n : Nat) :
    ∃ tail : Expr → Reader Expr, assignment operand n = sum operand n >>= tail ∧
      ∀ x, Rests (tail x) x := by
  cases n with
  | zero => exact ⟨pure, (bind_pure _).symm, rests_pure⟩
  | succ n => exact ⟨_, rfl, fun x => rests_acceptSameLine (rests_pure x)⟩

theorem follows_target {r r' : Reader Expr} (h : Follows k us b d (Expr.shift k) r r') (value : Expr) :
    Follows k us b 0 (Expr.shift k)
      (fun c => match r c with
        | .error e => .error e
        | .ok (.name line target, c') => .ok (.assign c.line value line target, c')
        | .ok _ => .error (c.unexpected "Identifier"))
      (fun c => match r' c with
        | .error e => .error e
        | .ok (.name line target, c') => .ok (.assign c.line (value.shift k) line target, c')
        | .ok _ => .error (c.unexpected "Identifier")) where
  ok c x c₁ hapart hle hx := by
    cases hr : r c with
    | error e =>
      rw [hr] at hx
      cases hx
    | ok q =>
      obtain ⟨y, c₂⟩ := q
      rw [hr] at hx
      obtain ⟨hr', hapart₂, hlen⟩ := h.ok c y c₂ hapart hle hr
      cases y with
      | name line target =>
        cases hx
        rw [hr']
        exact ⟨rfl, hapart₂, by omega⟩
      | _ => cases hx
  error hus c e hle he := by
    subst hus
    cases hr : r c with
    | error e' =>
      rw [hr] at he
      cases he
      rw [h.error rfl c e hle hr]
    | ok q =>
      obtain ⟨y, c₂⟩ := q
      rw [hr] at he
      obtain ⟨hr', -, -⟩ := h.ok c y c₂ (Cursor.apart_nil k c) hle hr
      rw [hr']
      cases y with
      | name line target => cases he
      | _ =>
        cases he
        exact congrArg Except.error (Cursor.unexpected_extend k c "Identifier")

theorem follows_assignment (hop : Follows k us N 1 (Expr.shift k) operand operand') (hN : b ≤ N)
    (hn : b ≤ n) (hm : b ≤ m) :
    Follows k us b 1 (Expr.shift k) (assignment operand n) (assignment operand' m) := by
  induction b generalizing n m with
  | zero =>
    obtain ⟨tail, hread, hrests⟩ := rests_assignment operand n
    obtain ⟨tail', hread', hrests'⟩ := rests_assignment operand' m
    rw [hread, hread']
    refine follows_bind (follows_sum (hop.mono hN) hn hm) fun x => ?_
    exact follows_of_rests (hrests x) (hrests' (x.shift k))
  | succ b ih =>
    obtain ⟨n, rfl⟩ := Nat.exists_eq_add_of_lt hn
    obtain ⟨m, rfl⟩ := Nat.exists_eq_add_of_lt hm
    refine follows_bind (follows_sum (hop.mono hN) (by omega) (by omega)) fun value => ?_
    refine follows_acceptSameLine (follows_pure _ value) fun _ => ?_
    have htarget : Follows k us b 1 (Expr.shift k) (assignment operand (b + n))
        (assignment operand' (b + m)) := ih (by omega) (by omega) (by omega)
    exact follows_target (htarget.mono (by omega)) value

/-- Readers that look at the first token. They read on behind it, or they leave it to another reader, or
they refuse it. -/
theorem follows_head {α β : Type} {φ : α → β} {r : Reader α} {r' : Reader β} (expected : String)
    (hnil : ∀ line, r ⟨line, []⟩ = .error (.unexpectedEnd line expected))
    (hnil' : ∀ line, r' ⟨line, []⟩ = .error (.unexpectedEnd line expected))
    (hcons : ∀ t : Token,
      (∃ q q', (∀ line ts, r ⟨line, t :: ts⟩ = q ⟨t.line, ts⟩) ∧
        (∀ line ts, r' ⟨line, t.shift k :: ts⟩ = q' ⟨t.line + k, ts⟩) ∧ Follows k us b 0 φ q q') ∨
      (∃ q q', (∀ line ts, r ⟨line, t :: ts⟩ = q ⟨line, t :: ts⟩) ∧
        (∀ line ts, r' ⟨line, t.shift k :: ts⟩ = q' ⟨line, t.shift k :: ts⟩) ∧
          Follows k us (b + 1) 1 φ q q') ∨
      (∀ line ts, r ⟨line, t :: ts⟩ =
        .error (.unexpectedToken t.line t.col expected t.lexeme.describe)) ∧
        ∀ line ts, r' ⟨line, t.shift k :: ts⟩ =
          .error (.unexpectedToken (t.line + k) t.col expected t.lexeme.describe)) :
    Follows k us (b + 1) 1 φ r r' where
  ok c x c₁ hapart hle hx := by
    obtain ⟨line, rest⟩ := c
    cases rest with
    | nil =>
      rw [hnil] at hx
      cases hx
    | cons t ts =>
      rcases hcons t with ⟨q, q', hr, hr', hq⟩ | ⟨q, q', hr, hr', hq⟩ | ⟨hr, -⟩
      · rw [hr] at hx
        obtain ⟨hx', hapart₁, hlen⟩ := hq.ok ⟨t.line, ts⟩ x c₁ hapart.tail
          (Nat.le_of_succ_le_succ hle) hx
        exact ⟨(hr' (line + k) _).trans hx', hapart₁, Nat.succ_le_succ hlen⟩
      · rw [hr] at hx
        obtain ⟨hx', hread⟩ := hq.ok ⟨line, t :: ts⟩ x c₁ hapart hle hx
        exact ⟨(hr' (line + k) _).trans hx', hread⟩
      · rw [hr] at hx
        cases hx
  error hus c e hle he := by
    subst hus
    obtain ⟨line, rest⟩ := c
    cases rest with
    | nil =>
      rw [hnil] at he
      cases he
      exact hnil' (line + k)
    | cons t ts =>
      rcases hcons t with ⟨q, q', hr, hr', hq⟩ | ⟨q, q', hr, hr', hq⟩ | ⟨hr, hr'⟩
      · rw [hr] at he
        exact (hr' (line + k) _).trans (hq.error rfl ⟨t.line, ts⟩ e (Nat.le_of_succ_le_succ hle) he)
      · rw [hr] at he
        exact (hr' (line + k) _).trans (hq.error rfl ⟨line, t :: ts⟩ e hle he)
      · rw [hr] at he
        cases he
        exact hr' (line + k) _

theorem follows_term {expr expr' : Reader Expr} (hexpr : Follows k us b 1 (Expr.shift k) expr expr')
    (hop : Follows k us b 1 (Expr.shift k) operand operand') :
    Follows k us (b + 1) 1 (Expr.shift k) (term expr operand) (term expr' operand') := by
  refine follows_head "expression" (fun _ => rfl) (fun _ => rfl) fun t => ?_
  obtain ⟨lexeme, l, col⟩ := t
  cases lexeme with
  | number spelling value =>
    exact .inl ⟨_, _, fun _ _ => rfl, fun _ _ => rfl, follows_pure (Expr.shift k) (.number l value)⟩
  | string text =>
    exact .inl ⟨_, _, fun _ _ => rfl, fun _ _ => rfl, follows_pure (Expr.shift k) (.text l text)⟩
  | identifier name =>
    exact .inl ⟨_, _, fun _ _ => rfl, fun _ _ => rfl, follows_pure (Expr.shift k) (.name l name)⟩
  | openParen =>
    refine .inl ⟨expr >>= fun x => closeParen >>= fun _ => pure x,
      expr' >>= fun x => closeParen >>= fun _ => pure x, fun _ _ => rfl, fun _ _ => rfl, ?_⟩
    refine follows_bind hexpr.weaken fun x => ?_
    refine follows_bind (follows_expect Lexeme.closeParen? "\")\"").weaken fun _ => ?_
    exact follows_pure (Expr.shift k) x
  | operator sign =>
    cases sign with
    | minus =>
      refine .inl ⟨operand >>= fun x => pure (.binary l .sub (.number l 0) x),
        operand' >>= fun x => pure (.binary (l + k) .sub (.number (l + k) 0) x),
        fun _ _ => rfl, fun _ _ => rfl, ?_⟩
      refine follows_bind hop.weaken fun x => ?_
      exact follows_pure (Expr.shift k) (.binary l .sub (.number l 0) x)
    | _ => exact .inr (.inr ⟨fun _ _ => rfl, fun _ _ => rfl⟩)
  | _ => exact .inr (.inr ⟨fun _ _ => rfl, fun _ _ => rfl⟩)

theorem shiftList_eq_map (k : Nat) (xs : List Expr) : Expr.shiftList k xs = xs.map (Expr.shift k) := by
  induction xs with
  | nil => rfl
  | cons x xs ih => rw [Expr.shiftList, ih, List.map_cons]

theorem follows_arguments {expr expr' : Reader Expr}
    (hexpr : Follows k us b 1 (Expr.shift k) expr expr') (hn : b ≤ n) (hm : b ≤ m) :
    Follows k us b 0 (List.map (Expr.shift k)) (arguments expr n) (arguments expr' m) := by
  refine follows_accept ?_ fun _ => follows_pure (List.map (Expr.shift k)) []
  refine follows_bind (follows_commaList hexpr (Nat.le_refl b) hn hm) fun args => ?_
  refine follows_bind (follows_expect Lexeme.closeParen? "\")\"").weaken fun _ => ?_
  exact follows_pure (List.map (Expr.shift k)) args

theorem rests_calls (expr : Reader Expr) (n : Nat) (x : Expr) : Rests (calls expr n x) x := by
  cases n with
  | zero => exact rests_pure x
  | succ n => exact rests_acceptSameLine (rests_pure x)

theorem follows_calls {expr expr' : Reader Expr}
    (hexpr : Follows k us N 1 (Expr.shift k) expr expr') (hN : b ≤ N) (hn : b ≤ n) (hm : b ≤ m)
    (x : Expr) :
    Follows k us b 0 (Expr.shift k) (calls expr n x) (calls expr' m (x.shift k)) := by
  induction b generalizing n m x with
  | zero => exact follows_of_rests (rests_calls expr n x) (rests_calls expr' m (x.shift k))
  | succ b ih =>
    obtain ⟨n, rfl⟩ := Nat.exists_eq_add_of_lt hn
    obtain ⟨m, rfl⟩ := Nat.exists_eq_add_of_lt hm
    refine follows_acceptSameLine (follows_pure _ x) fun _ => ?_
    refine follows_bind follows_currentLine fun line => ?_
    refine follows_bind (follows_arguments (hexpr.mono (by omega)) (by omega) (by omega)) fun args => ?_
    rw [← shiftList_eq_map]
    exact ih (by omega) (by omega) (by omega) (.call line x args)

theorem follows_operand_nil (n m : Nat) :
    Follows k us 0 1 (Expr.shift k) (Reader.operand n) (Reader.operand m) := by
  have hnil (n line : Nat) :
      Reader.operand n ⟨line, []⟩ = .error (.unexpectedEnd line "expression") := by
    cases n <;> rfl
  constructor
  · intro c x c₁ _ hle hx
    obtain ⟨line, rest⟩ := c
    obtain rfl : rest = [] := List.eq_nil_of_length_eq_zero (Nat.le_zero.mp hle)
    rw [hnil] at hx
    cases hx
  · rintro rfl c e hle he
    obtain ⟨line, rest⟩ := c
    obtain rfl : rest = [] := List.eq_nil_of_length_eq_zero (Nat.le_zero.mp hle)
    rw [hnil] at he
    cases he
    exact hnil m (line + k)

theorem follows_operand (hn : b ≤ n) (hm : b ≤ m) :
    Follows k us b 1 (Expr.shift k) (Reader.operand n) (Reader.operand m) := by
  induction b generalizing n m with
  | zero => exact follows_operand_nil n m
  | succ b ih =>
    obtain ⟨n, rfl⟩ := Nat.exists_eq_add_of_lt hn
    obtain ⟨m, rfl⟩ := Nat.exists_eq_add_of_lt hm
    have hop : Follows k us b 1 (Expr.shift k) (Reader.operand (b + n)) (Reader.operand (b + m)) :=
      ih (by omega) (by omega)
    have hexpr := follows_assignment hop (Nat.le_refl b) (n := b + n) (m := b + m) (by omega) (by omega)
    refine follows_bind (follows_term hexpr hop) fun x => ?_
    exact follows_calls hexpr (Nat.le_refl b) (by omega) (by omega) x

theorem follows_expr (hn : b ≤ n) (hm : b ≤ m) :
    Follows k us b 1 (Expr.shift k) (expr n) (expr m) :=
  follows_assignment (follows_operand hn hm) (Nat.le_refl b) hn hm

end Levels

end Reader

end PocketBasic
