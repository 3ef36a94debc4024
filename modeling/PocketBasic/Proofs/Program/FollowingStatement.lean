import PocketBasic.Proofs.Program.FollowingExpr

/-!
# Statements before more tokens

Every kind of statement reads the same before more tokens on other lines, and so does a list of statements,
which then goes on with those tokens.
-/

namespace PocketBasic

namespace Reader

variable {k b n m : Nat} {us : List Token}

theorem follows_forCommand (hn : b ≤ n) (hm : b ≤ m) :
    Follows k us b 0 (Command.shift k) (forCommand n) (forCommand m) := by
  have hexpr : Follows k us b 0 (Expr.shift k) (expr n) (expr m) := (follows_expr hn hm).weaken
  have hcomma : Follows k us b 0 id comma comma := (follows_expect _ _).weaken
  have hclose (var : String) (start stop step : Expr) : Follows k us b 1 (Command.shift k)
      (closeParen >>= fun _ => pure (.forLoop var start stop step))
      (closeParen >>= fun _ =>
        pure (.forLoop var (start.shift k) (stop.shift k) (step.shift k))) :=
    follows_bind (follows_expect _ _) fun _ =>
      follows_pure (Command.shift k) (.forLoop var start stop step)
  refine follows_bind follows_currentLine fun line => ?_
  refine follows_bind (follows_expect Lexeme.openParen? "\"(\"").weaken fun _ => ?_
  refine follows_bind (follows_expect Lexeme.identifier? "Identifier").weaken fun var => ?_
  refine follows_bind hcomma fun _ => ?_
  refine follows_bind hexpr fun start => ?_
  refine follows_bind hcomma fun _ => ?_
  refine follows_bind hexpr fun stop => ?_
  refine follows_accept (hclose var start stop (.number line 1)) fun _ => ?_
  exact follows_bind hexpr fun step => (hclose var start stop step).weaken

theorem follows_outputCommand (hn : b ≤ n) (hm : b ≤ m) :
    Follows k us b 0 (Command.shift k) (outputCommand n) (outputCommand m) := by
  have hexpr : Follows k us b 0 (Expr.shift k) (expr n) (expr m) := (follows_expr hn hm).weaken
  have hcomma : Follows k us b 0 id comma comma := (follows_expect _ _).weaken
  refine follows_bind (follows_expect Lexeme.openParen? "\"(\"").weaken fun _ => ?_
  refine follows_bind hexpr fun row => ?_
  refine follows_bind hcomma fun _ => ?_
  refine follows_bind hexpr fun col => ?_
  refine follows_bind hcomma fun _ => ?_
  refine follows_bind hexpr fun value => ?_
  exact follows_acceptSameLine (follows_pure (Command.shift k) (.output row col value))
    fun _ => follows_pure (Command.shift k) (.output row col value)

theorem follows_inputCommand (hn : b ≤ n) (hm : b ≤ m) :
    Follows k us b 0 (Command.shift k) (inputCommand n) (inputCommand m) := by
  refine follows_bind follows_currentLine fun line => ?_
  refine follows_bind (follows_expr hn hm).weaken fun first => ?_
  refine follows_acceptSameLine ?_ fun _ => ?_
  · cases first with
    | name l var => exact follows_pure (Command.shift k) (.input none var)
    | _ => exact follows_throw (Command.shift k) (.unexpectedToken line 0 "Identifier" "expression")
  · refine follows_bind (follows_expect Lexeme.identifier? "Identifier").weaken fun var => ?_
    exact follows_pure (Command.shift k) (.input (some first) var)

theorem rests_menuOptions (n j : Nat) : Rests (menuOptions n j) [] := by
  cases j with
  | zero => exact rests_pure []
  | succ j => exact rests_acceptSameLine (rests_pure [])

theorem follows_menuOptions {N i j : Nat} (hn : N ≤ n) (hm : N ≤ m) (hN : b ≤ N) (hi : b ≤ i)
    (hj : b ≤ j) :
    Follows k us b 0 (List.map (MenuOption.shift k)) (menuOptions n i) (menuOptions m j) := by
  induction b generalizing i j with
  | zero => exact follows_of_rests (rests_menuOptions n i) (rests_menuOptions m j)
  | succ b ih =>
    obtain ⟨i, rfl⟩ := Nat.exists_eq_add_of_lt hi
    obtain ⟨j, rfl⟩ := Nat.exists_eq_add_of_lt hj
    refine follows_acceptSameLine (follows_pure (List.map (MenuOption.shift k)) []) fun _ => ?_
    refine follows_bind (follows_expr (by omega) (by omega)).weaken fun text => ?_
    refine follows_bind (follows_expect Lexeme.comma? "Comma").weaken fun _ => ?_
    refine follows_bind (follows_expect Lexeme.label? "label name").weaken fun target => ?_
    refine follows_bind (ih (by omega) (by omega) (by omega)) fun more => ?_
    exact follows_pure (List.map (MenuOption.shift k)) (⟨text, target⟩ :: more)

theorem follows_menuCommand (hn : b ≤ n) (hm : b ≤ m) :
    Follows k us b 0 (Command.shift k) (menuCommand n) (menuCommand m) := by
  refine follows_bind (follows_expect Lexeme.openParen? "\"(\"").weaken fun _ => ?_
  refine follows_bind (follows_expr hn hm).weaken fun title => ?_
  refine follows_bind (follows_menuOptions hn hm (Nat.le_refl b) hn hm) fun options => ?_
  exact follows_acceptSameLine (follows_pure (Command.shift k) (.menu title options))
    fun _ => follows_pure (Command.shift k) (.menu title options)

theorem follows_dispCommand (hn : b ≤ n) (hm : b ≤ m) :
    Follows k us b 0 (Command.shift k) (dispCommand n) (dispCommand m) := by
  refine follows_bind follows_moreOnLine fun more => ?_
  cases more with
  | true =>
    refine follows_bind (follows_commaList (follows_expr hn hm).weaken (Nat.le_refl b) hn hm)
      fun args => ?_
    rw [← shiftList_eq_map]
    exact follows_pure (Command.shift k) (.disp args)
  | false => exact follows_pure (Command.shift k) (.disp [])

theorem follows_pauseCommand (hn : b ≤ n) (hm : b ≤ m) :
    Follows k us b 0 (Command.shift k) (pauseCommand n) (pauseCommand m) := by
  refine follows_bind follows_moreOnLine fun more => ?_
  cases more with
  | true =>
    refine follows_bind (follows_expr hn hm).weaken fun value => ?_
    exact follows_pure (Command.shift k) (.pause (some value))
  | false => exact follows_pure (Command.shift k) (.pause none)

theorem follows_keyword (word : String) (hn : b ≤ n) (hm : b ≤ m) :
    Option.Rel (Follows k us b 0 (Command.shift k)) (keyword? n word) (keyword? m word) := by
  have hexpr : Follows k us b 0 (Expr.shift k) (expr n) (expr m) := (follows_expr hn hm).weaken
  unfold keyword?
  split
  · exact .some (follows_map hexpr fun _ => rfl)
  · exact .some (follows_pure (Command.shift k) .thenMark)
  · exact .some (follows_pure (Command.shift k) .elseMark)
  · exact .some (follows_pure (Command.shift k) .endMark)
  · exact .some (follows_pure (Command.shift k) .clearHome)
  · exact .some (follows_map hexpr fun _ => rfl)
  · exact .some (follows_map hexpr fun _ => rfl)
  · exact .some (follows_forCommand hn hm)
  · exact .some (follows_dispCommand hn hm)
  · exact .some (follows_outputCommand hn hm)
  · exact .some (follows_inputCommand hn hm)
  · have hnames : Follows k us b 0 (List.map id) (commaList identifier n) (commaList identifier m) :=
      follows_commaList (follows_expect _ _).weaken (Nat.le_refl b) hn hm
    exact .some (follows_map hnames fun names => by rw [List.map_id]; rfl)
  · exact .some (follows_pauseCommand hn hm)
  · exact .some (follows_menuCommand hn hm)
  · exact .some (follows_map (follows_expect _ _).weaken fun _ => rfl)
  · exact .some (follows_map (follows_expect _ _).weaken fun _ => rfl)
  · exact .some (follows_map (follows_expect _ _).weaken fun _ => rfl)
  · exact .none

theorem follows_statement (hn : b < n) (hm : b < m) :
    Follows k us (b + 1) 1 (Statement.shift k) (statement n) (statement m) := by
  refine follows_head "expression" (fun _ => rfl) (fun _ => rfl) fun t => ?_
  obtain ⟨lexeme, l, col⟩ := t
  have hcompute : Follows k us (b + 1) 1 (Statement.shift k)
      (Statement.mk l <$> Command.compute <$> expr n)
      (Statement.mk (l + k) <$> Command.compute <$> expr m) :=
    follows_map (follows_map (ψ := Command.shift k) (follows_expr hn hm) fun _ => rfl) fun _ => rfl
  cases lexeme with
  | identifier name =>
    have hword : Option.Rel (Follows k us b 0 (Command.shift k)) (keyword? n name.toLower)
        (keyword? m name.toLower) :=
      follows_keyword name.toLower (Nat.le_of_lt hn) (Nat.le_of_lt hm)
    cases hr : keyword? n name.toLower with
    | none =>
      cases hr' : keyword? m name.toLower with
      | none =>
        refine .inr (.inl ⟨_, _, fun line ts => ?_, fun line ts => ?_, hcompute⟩)
        · simp only [statement, commandAt, hr]
        · simp only [statement, commandAt, Token.shift, hr']
      | some command' =>
        rw [hr, hr'] at hword
        cases hword
    | some command =>
      cases hr' : keyword? m name.toLower with
      | none =>
        rw [hr, hr'] at hword
        cases hword
      | some command' =>
        rw [hr, hr'] at hword
        cases hword with
        | some hcommand =>
          refine .inl ⟨Statement.mk l <$> command, Statement.mk (l + k) <$> command',
            fun line ts => ?_, fun line ts => ?_, follows_map hcommand fun _ => rfl⟩
          · simp only [statement, commandAt, hr]
            rfl
          · simp only [statement, commandAt, Token.shift, hr']
            rfl
  | _ =>
    refine .inr (.inl ⟨_, _, fun line ts => ?_, fun line ts => ?_, hcompute⟩)
    · rfl
    · rfl

section Lists

variable {c c₁ : Cursor} {line : Nat} {t : Token} {ts : List Token} {s : Statement}
  {sts : List Statement} {e : Fault}

theorem statements_nil (n line : Nat) : statements n ⟨line, []⟩ = .ok ([], ⟨line, []⟩) := by
  cases n <;> rfl

theorem statements_cons_ok (h : statement (n + 1) ⟨line, t :: ts⟩ = .ok (s, c₁)) :
    statements (n + 1) ⟨line, t :: ts⟩ = (statements n c₁).map fun q => (s :: q.1, q.2) := by
  refine (bind_of_ok h).trans ?_
  change (statements n c₁ >>= fun q => (pure (s :: q.1) : Reader _) q.2) = _
  cases statements n c₁ <;> rfl

theorem statements_cons_error (h : statement (n + 1) ⟨line, t :: ts⟩ = .error e) :
    statements (n + 1) ⟨line, t :: ts⟩ = .error e :=
  bind_of_error h

/-- Before more tokens the statements are read, and then what is behind them. -/
theorem statements_extend (hn : c.rest.length ≤ n) (hm : c.rest.length + us.length ≤ m)
    (hapart : c.Apart k us) (h : statements n c = .ok (sts, c₁)) :
    ∃ m' line, us.length ≤ m' ∧ statements m (c.extend k us) =
      (statements m' ⟨line, us⟩).map fun q => (sts.map (Statement.shift k) ++ q.1, q.2) := by
  have hend (m line : Nat) : statements m ⟨line, us⟩ =
      (statements m ⟨line, us⟩).map fun q => ([].map (Statement.shift k) ++ q.1, q.2) := by
    cases statements m ⟨line, us⟩ <;> rfl
  induction n generalizing c m sts with
  | zero =>
    obtain ⟨line, rest⟩ := c
    obtain rfl : rest = [] := List.eq_nil_of_length_eq_zero (Nat.le_zero.mp hn)
    cases h
    exact ⟨m, line + k, by omega, hend m (line + k)⟩
  | succ n ih =>
    obtain ⟨line, rest⟩ := c
    cases rest with
    | nil =>
      cases h
      exact ⟨m, line + k, by omega, hend m (line + k)⟩
    | cons t ts =>
      simp only [List.length_cons] at hn hm
      obtain ⟨m, rfl⟩ : ∃ m', m = m' + 1 := Nat.exists_eq_add_one.mpr (by omega)
      have hstatement : Follows k us (ts.length + 1) 1 (Statement.shift k) (statement (n + 1))
          (statement (m + 1)) := follows_statement (by omega) (by omega)
      cases hs : statement (n + 1) ⟨line, t :: ts⟩ with
      | error e =>
        rw [statements_cons_error hs] at h
        cases h
      | ok q =>
        obtain ⟨s, c₂⟩ := q
        rw [statements_cons_ok hs] at h
        obtain ⟨hs', hapart₂, hlen⟩ := hstatement.ok _ s c₂ hapart (Nat.le_refl _) hs
        simp only [List.length_cons] at hlen
        cases hmore : statements n c₂ with
        | error e =>
          rw [hmore] at h
          cases h
        | ok q =>
          obtain ⟨more, c₃⟩ := q
          rw [hmore] at h
          cases h
          obtain ⟨m', line', hle, heq⟩ := ih (m := m) (by omega) (by omega) hapart₂ hmore
          refine ⟨m', line', hle, (statements_cons_ok hs').trans ?_⟩
          rw [heq]
          cases statements m' ⟨line', us⟩ <;> rfl

theorem statements_shift_error (k : Nat) (hn : c.rest.length ≤ n) (hm : c.rest.length ≤ m)
    (h : statements n c = .error e) : statements m (c.extend k []) = .error (e.shift k) := by
  induction n generalizing c m with
  | zero => cases h
  | succ n ih =>
    obtain ⟨line, rest⟩ := c
    cases rest with
    | nil => cases h
    | cons t ts =>
      simp only [List.length_cons] at hn hm
      obtain ⟨m, rfl⟩ : ∃ m', m = m' + 1 := Nat.exists_eq_add_one.mpr (by omega)
      have hstatement : Follows k [] (ts.length + 1) 1 (Statement.shift k) (statement (n + 1))
          (statement (m + 1)) := follows_statement (by omega) (by omega)
      cases hs : statement (n + 1) ⟨line, t :: ts⟩ with
      | error e' =>
        rw [statements_cons_error hs] at h
        cases h
        exact statements_cons_error (hstatement.error rfl _ e (Nat.le_refl _) hs)
      | ok q =>
        obtain ⟨s, c₂⟩ := q
        rw [statements_cons_ok hs] at h
        obtain ⟨hs', -, hlen⟩ := hstatement.ok _ s c₂ (Cursor.apart_nil k _) (Nat.le_refl _) hs
        simp only [List.length_cons] at hlen
        cases hmore : statements n c₂ with
        | error e' =>
          rw [hmore] at h
          cases h
          refine (statements_cons_ok hs').trans ?_
          rw [ih (m := m) (by omega) (by omega) hmore]
          rfl
        | ok q =>
          rw [hmore] at h
          cases h

/-- A reader that does not ask on which line the token before the next one stands. -/
def HeadOnly {α : Type} (r : Reader α) : Prop :=
  ∀ line line' t ts, r ⟨line, t :: ts⟩ = r ⟨line', t :: ts⟩

theorem headOnly_bind {α β : Type} {r : Reader α} (h : HeadOnly r) (f : α → Reader β) :
    HeadOnly (r >>= f) := by
  intro line line' t ts
  change (r ⟨line, t :: ts⟩ >>= fun q => f q.1 q.2) = _
  rw [h line line' t ts]
  rfl

theorem headOnly_map {α β : Type} {r : Reader α} (h : HeadOnly r) (g : α → β) : HeadOnly (g <$> r) :=
  headOnly_bind h fun a => pure (g a)

theorem headOnly_expr (n : Nat) : HeadOnly (expr n) := by
  have hoperand : HeadOnly (operand n) := by
    cases n with
    | zero => exact fun _ _ _ _ => rfl
    | succ n => exact headOnly_bind (fun _ _ _ _ => rfl) _
  have hsum (j : Nat) : HeadOnly (sum (operand n) j) :=
    headOnly_bind (headOnly_bind (headOnly_bind hoperand _) _) _
  unfold expr
  cases n with
  | zero => exact hsum 0
  | succ n => exact headOnly_bind (hsum (n + 1)) _

theorem headOnly_statement (n : Nat) : HeadOnly (statement n) := by
  intro line line' t ts
  simp only [statement, commandAt]
  split
  · split
    · rfl
    · exact headOnly_map (headOnly_map (headOnly_expr n) _) _ line line' t ts
  · exact headOnly_map (headOnly_map (headOnly_expr n) _) _ line line' t ts

/-- The statements do not depend on the line of what was read before. -/
theorem statements_line (n line line' : Nat) (ts : List Token) :
    (statements n ⟨line, ts⟩).map Prod.fst = (statements n ⟨line', ts⟩).map Prod.fst := by
  cases n with
  | zero => rfl
  | succ n =>
    cases ts with
    | nil => rfl
    | cons t ts =>
      have hcons : statements (n + 1) ⟨line, t :: ts⟩ = statements (n + 1) ⟨line', t :: ts⟩ :=
        headOnly_bind (headOnly_statement (n + 1)) _ line line' t ts
      rw [hcons]

end Lists

end Reader

end PocketBasic
