import PocketBasic.Proofs.Program.AlongExpr
import PocketBasic.Proofs.Program.FollowingStatement

/-!
# Statements by position

Every kind of statement read by position goes along with the bounded reader of what is left. A statement is
asked for before the last token only, so the token that it looks at is there.
-/

namespace PocketBasic.Indexed

variable {tokens : List Token} {P : Nat → Prop} {b m n j : Nat} {t : Token}

section Commands

theorem along_inner_expr (hn : b ≤ n) (hm : 10 * b + 10 ≤ m) :
    Along tokens Started b 0 (expr tokens m) (Reader.expr n) :=
  (allAlong_bounded_expr hn Started b m (Nat.le_refl b) hm).weaken

theorem along_forCommand (hn : b ≤ n) (hm : 10 * b + 10 ≤ m) :
    Along tokens (Behind tokens t) b 0 (forCommand tokens m t.line) (Reader.forCommand n) := by
  have hclose (var : String) (start stop step : Expr) : Along tokens Started b 0
      (closeParen tokens >>= fun _ => pure (Command.forLoop var start stop step))
      (Reader.closeParen >>= fun _ => pure (Command.forLoop var start stop step)) :=
    along_bind_later (along_token _ _) fun _ => along_pure (Command.forLoop var start stop step)
  refine along_currentLine (Along.behind ?_)
  refine along_bind_later (along_token _ _) fun _ => ?_
  refine along_bind_later (along_token _ _) fun var => ?_
  refine along_bind_later (along_token _ _) fun _ => ?_
  refine along_bind_later (along_inner_expr hn hm) fun start => ?_
  refine along_bind_later (along_token _ _) fun _ => ?_
  refine along_bind_later (along_inner_expr hn hm) fun stop => ?_
  refine along_accept (hclose var start stop (.number t.line 1)) fun _ _ => Along.behind ?_
  exact (along_bind_later (along_inner_expr hn hm) fun step => hclose var start stop step).mono (Nat.sub_le b 1)

theorem along_outputCommand (hn : b ≤ n) (hm : 10 * b + 10 ≤ m) :
    Along tokens Started b 0 (outputCommand tokens m) (Reader.outputCommand n) := by
  refine along_bind_later (along_token _ _) fun _ => ?_
  refine along_bind_later (along_inner_expr hn hm) fun row => ?_
  refine along_bind_later (along_token _ _) fun _ => ?_
  refine along_bind_later (along_inner_expr hn hm) fun col => ?_
  refine along_bind_later (along_token _ _) fun _ => ?_
  refine along_bind_later (along_inner_expr hn hm) fun value => ?_
  exact along_acceptSameLine (along_pure (Command.output row col value))
    fun _ _ => along_pure (Command.output row col value)

theorem along_inputCommand (hn : b ≤ n) (hm : 10 * b + 10 ≤ m) :
    Along tokens (Behind tokens t) b 0 (inputCommand tokens m t.line) (Reader.inputCommand n) := by
  refine along_currentLine (Along.behind ?_)
  refine along_bind_later (along_inner_expr hn hm) fun first => ?_
  refine along_acceptSameLine ?_ fun _ _ => Along.behind ?_
  · cases first with
    | name l var => exact along_pure (Command.input none var)
    | _ => exact along_throw (.unexpectedToken t.line 0 "Identifier" "expression")
  · exact along_bind_later (along_token _ _) fun var => along_pure (Command.input (some first) var)

theorem along_menuOptions (hn : b ≤ n) (hj : b ≤ j) (hm : 10 * b + 1 ≤ m) :
    Along tokens Started b 0 (menuOptions tokens m) (Reader.menuOptions n j) := by
  obtain ⟨m, rfl⟩ : ∃ k, m = k + 1 := Nat.exists_eq_add_one.mpr (by omega)
  induction b generalizing j m with
  | zero =>
    refine along_of_rests ?_ (Reader.rests_menuOptions n j)
    rw [menuOptions]
    exact rests_acceptSameLine fun _ _ _ => rfl
  | succ b ih =>
    obtain ⟨j, rfl⟩ := Nat.exists_eq_add_of_lt hj
    obtain ⟨k, rfl⟩ : ∃ k, m = k + 1 := Nat.exists_eq_add_one.mpr (by omega)
    rw [menuOptions]
    refine along_acceptSameLine (along_pure []) fun t _ => Along.behind ?_
    refine along_bind_later (along_inner_expr (by omega) (by omega)) fun text => ?_
    refine along_bind_later (along_token _ _) fun _ => ?_
    refine along_bind_later (along_token _ _) fun target => ?_
    exact along_bind_later (ih (by omega) (by omega) k (by omega)) fun more => along_pure (⟨text, target⟩ :: more)

theorem along_menuCommand (hn : b ≤ n) (hm : 10 * b + 10 ≤ m) :
    Along tokens Started b 0 (menuCommand tokens m) (Reader.menuCommand n) := by
  refine along_bind_later (along_token _ _) fun _ => ?_
  refine along_bind_later (along_inner_expr hn hm) fun title => ?_
  refine along_bind_later (along_menuOptions hn hn (by omega)) fun options => ?_
  exact along_acceptSameLine (along_pure (Command.menu title options))
    fun _ _ => along_pure (Command.menu title options)

theorem along_dispCommand (hn : b ≤ n) (hm : 10 * b + 11 ≤ m) :
    Along tokens Started b 0 (dispCommand tokens m) (Reader.dispCommand n) := by
  have hitems : Along tokens Started b 1 (items tokens m) (Reader.commaList (Reader.expr n) n) :=
    allAlong_items (allAlong_bounded_expr hn) hn Started b m (Nat.le_refl b) hm
  refine along_bind_later along_moreOnLine fun more => ?_
  cases more with
  | true => exact along_bind_later hitems.weaken fun args => along_pure (Command.disp args)
  | false => exact along_pure (Command.disp [])

theorem along_pauseCommand (hn : b ≤ n) (hm : 10 * b + 10 ≤ m) :
    Along tokens Started b 0 (pauseCommand tokens m) (Reader.pauseCommand n) := by
  refine along_bind_later along_moreOnLine fun more => ?_
  cases more with
  | true => exact along_bind_later (along_inner_expr hn hm) fun value => along_pure (Command.pause (some value))
  | false => exact along_pure (Command.pause none)

theorem along_names (hn : b ≤ n) (hm : 10 * b + 1 ≤ m) :
    Along tokens Started b 0 (names tokens m) (Reader.commaList Reader.identifier n) := by
  have hitem : AllAlong tokens b 0 (fun _ => identifier tokens) Reader.identifier :=
    fun _ _ _ _ _ => along_expect Lexeme.identifier? "Identifier"
  exact (allAlong_list (fun _ => rfl) hitem hn Started b m (Nat.le_refl b) hm).weaken

theorem along_keyword (word : String) (hn : b ≤ n) (hm : 10 * b + 11 ≤ m) :
    Option.Rel (Along tokens (Behind tokens t) b 0) (keyword? tokens m t.line word)
      (Reader.keyword? n word) := by
  have hexpr : Along tokens (Behind tokens t) b 0 (expr tokens m) (Reader.expr n) :=
    (along_inner_expr hn (by omega)).behind
  unfold keyword?
  split
  · exact .some (along_map hexpr Command.ifTest)
  · exact .some (along_pure Command.thenMark)
  · exact .some (along_pure Command.elseMark)
  · exact .some (along_pure Command.endMark)
  · exact .some (along_pure Command.clearHome)
  · exact .some (along_map hexpr Command.whileLoop)
  · exact .some (along_map hexpr Command.repeatLoop)
  · exact .some (along_forCommand hn (by omega))
  · exact .some (along_dispCommand hn hm).behind
  · exact .some (along_outputCommand hn (by omega)).behind
  · exact .some (along_inputCommand hn (by omega))
  · exact .some (along_map (along_names hn (by omega)) Command.prompt).behind
  · exact .some (along_pauseCommand hn (by omega)).behind
  · exact .some (along_menuCommand hn (by omega)).behind
  · exact .some (along_map (along_token Lexeme.label? "label name") Command.label).behind
  · exact .some (along_map (along_token Lexeme.label? "label name") Command.goto).behind
  · exact .some (along_map (along_token Lexeme.programName? "program name") Command.program).behind
  · have hnone : Reader.keyword? n word = none := by
      unfold Reader.keyword?
      split <;> first | rfl | contradiction
    rw [hnone]
    exact .none

end Commands

section Statements

theorem along_computeCommand (hn : b ≤ n) (hm : 10 * b + 10 ≤ m) :
    Along tokens (· < tokens.length) b 1 (computeCommand tokens m) (Command.compute <$> Reader.expr n) := by
  intro i hlt hi hle
  rw [computeCommand, bind_of_ok (current_eq (List.getElem?_eq_getElem hlt))]
  have hexpr : Along tokens (fun _ => True) b 1 (expr tokens m) (Reader.expr n) :=
    allAlong_bounded_expr hn (fun _ => True) b m (Nat.le_refl b) hm
  exact along_map hexpr Command.compute i trivial hi hle

theorem along_statement (hn : b < n) (hm : 10 * (b + 1) + 10 ≤ m) :
    Along tokens (· < tokens.length) (b + 1) 1 (statement tokens m) (Reader.statement n) := by
  intro i hlt hi hle
  obtain ⟨t, ht⟩ : ∃ t, tokens[i]? = some t := ⟨tokens[i], List.getElem?_eq_getElem hlt⟩
  have hcompute := along_map (along_computeCommand hn hm) (Statement.mk t.line) i hlt hi hle
  rw [cursorAt_of_getElem? ht] at hcompute ⊢
  rw [statement, bind_of_ok (current_eq ht)]
  obtain ⟨lexeme, l, col⟩ := t
  cases lexeme with
  | identifier name =>
    have hword : Option.Rel (Along tokens (Behind tokens ⟨.identifier name, l, col⟩) b 0)
        (keyword? tokens m l name.toLower) (Reader.keyword? n name.toLower) :=
      along_keyword name.toLower (Nat.le_of_lt hn) (by omega)
    simp only [Reader.statement, Reader.commandAt]
    generalize keyword? tokens m l name.toLower = k at hword
    generalize Reader.keyword? n name.toLower = k' at hword
    cases hword with
    | none => exact hcompute
    | some hcommand => exact agrees_next ht (along_map hcommand (Statement.mk l)) hle
  | _ => exact hcompute

variable {i : Nat}

theorem statements_end (hend : tokens.length ≤ i) (m : Nat) : statements tokens (m + 1) i = .ok ([], i) := by
  rw [statements, bind_of_ok (atEnd_eq_true hend)]
  rfl

theorem statements_of_lt (hlt : i < tokens.length) (m : Nat) :
    statements tokens (m + 1) i = (do
      let s ← statement tokens m
      let more ← statements tokens m
      pure (s :: more) : Indexed (List Statement)) i := by
  rw [statements, bind_of_ok (atEnd_eq_false (List.getElem?_eq_getElem hlt))]
  rfl

theorem agrees_statements_end (hend : i = tokens.length) (m n : Nat) :
    Agrees tokens i (statements tokens (m + 1) i) (Reader.statements n (cursorAt tokens i)) := by
  have hle : tokens.length ≤ i := Nat.le_of_eq hend.symm
  rw [statements_end hle, cursorAt_of_le hle, Reader.statements_nil, ← cursorAt_of_le hle]
  exact .ok (Nat.le_refl i) (Nat.le_of_eq hend)

theorem along_statements (hn : b ≤ n) (hm : 10 * b + 11 ≤ m) :
    Along tokens P b 0 (statements tokens m) (Reader.statements n) := by
  obtain ⟨m, rfl⟩ : ∃ k, m = k + 1 := Nat.exists_eq_add_one.mpr (by omega)
  induction b generalizing n m P with
  | zero => exact fun i _ hi hle => agrees_statements_end (Nat.le_antisymm hi hle) m n
  | succ b ih =>
    obtain ⟨n, rfl⟩ := Nat.exists_eq_add_of_lt hn
    obtain ⟨k, rfl⟩ : ∃ k, m = k + 1 := Nat.exists_eq_add_one.mpr (by omega)
    intro i _ hi hle
    by_cases hlt : i < tokens.length
    · have hfirst : Along tokens (· < tokens.length) (b + 1) 1 (statement tokens (k + 1))
          (Reader.statement (b + n + 1)) := along_statement (by omega) (by omega)
      have hall := along_bind_first hfirst fun s =>
        along_bind_later (ih (P := Started) (n := b + n) (by omega) k (by omega)) fun more =>
          along_pure (s :: more)
      have hagrees := (hall i hlt hi hle).mono (Nat.le_succ i)
      rw [statements_of_lt hlt]
      rw [cursorAt_of_getElem? (List.getElem?_eq_getElem hlt)] at hagrees ⊢
      exact hagrees
    · exact agrees_statements_end (by omega) (k + 1) (b + n + 1)

end Statements

end PocketBasic.Indexed
