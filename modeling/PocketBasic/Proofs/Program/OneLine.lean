import PocketBasic.Proofs.Program.ExprLines
import PocketBasic.Proofs.Program.LineBreak

/-!
# Expressions and source lines

Every expression of a compiled program is read from a part of the tokens. If it does not lie on one
line, then its tokens break behind one that asks for more or in front of a closing parenthesis.
-/

namespace PocketBasic

/-- All nodes of the expression stand on its line. -/
def Expr.OneLine (x : Expr) : Prop := ∀ l ∈ x.lines, l = x.line

theorem Expr.line_mem_lines (x : Expr) : x.line ∈ x.lines := by
  cases x <;> exact List.mem_cons_self

def Command.exprs : Command → List Expr
  | .compute x | .whileLoop x | .repeatLoop x | .ifTest x => [x]
  | .forLoop _ start stop step => [start, stop, step]
  | .disp args => args
  | .output row col value => [row, col, value]
  | .input (some question) _ => [question]
  | .pause (some value) => [value]
  | .menu title options => title :: options.map (·.text)
  | .label _ | .goto _ | .thenMark | .elseMark | .endMark | .clearHome | .input none _ | .prompt _
  | .pause none | .program _ => []

/-- The tokens `ts` are a part of the program, and the expression is what is read from them. -/
structure SpelledBy (tokens : List Token) (x : Expr) (ts : List Token) : Prop where
  read : ∃ pre post n line line', tokens = pre ++ ts ++ post ∧
    Reader.expr n ⟨line, ts ++ post⟩ = .ok (x, ⟨line', post⟩)
  joined : ts.IsChain Token.Joins
  covers : ∀ l ∈ x.lines, ∃ t ∈ ts, t.line = l

/-- The tokens break into lines behind one that asks for more or in front of a closing parenthesis. -/
def BreaksInside (ts : List Token) : Prop :=
  ∃ before t u after, ts = before ++ t :: u :: after ∧ t.line ≠ u.line ∧
    (t.lexeme.goesOn = true ∨ u.lexeme = .closeParen)

theorem sameLine_or_break (ts : List Token) :
    (∃ line, ∀ t ∈ ts, t.line = line) ∨
      ∃ before t u after, ts = before ++ t :: u :: after ∧ t.line ≠ u.line := by
  induction ts with
  | nil => exact .inl ⟨0, by simp⟩
  | cons t ts ih =>
    cases ts with
    | nil => exact .inl ⟨t.line, by simp⟩
    | cons u us =>
      by_cases hline : t.line = u.line
      · rcases ih with ⟨line, hall⟩ | ⟨before, t', u', after, hts, hne⟩
        · refine .inl ⟨line, fun v hv => ?_⟩
          rcases List.mem_cons.mp hv with rfl | hv
          · exact hline.trans (hall u List.mem_cons_self)
          · exact hall v hv
        · exact .inr ⟨t :: before, t', u', after, by rw [hts]; rfl, hne⟩
      · exact .inr ⟨[], t, u, us, rfl, hline⟩

theorem SpelledBy.oneLine_or_breaks {tokens ts : List Token} {x : Expr}
    (h : SpelledBy tokens x ts) : x.OneLine ∨ BreaksInside ts := by
  rcases sameLine_or_break ts with ⟨line, hall⟩ | ⟨before, t, u, after, hts, hne⟩
  · refine .inl fun l hl => ?_
    obtain ⟨t, ht, rfl⟩ := h.covers l hl
    obtain ⟨u, hu, hline⟩ := h.covers x.line x.line_mem_lines
    rw [hall t ht, ← hline, hall u hu]
  · have hjoins : t.Joins u := List.isChain_iff_forall_rel_of_append_cons_cons.mp h.joined hts
    exact .inr ⟨before, t, u, after, hts, hne, hjoins.resolve_left hne⟩

namespace Reader

section Statements

variable {α β : Type} {tokens : List Token} {P : α → Prop} {Q : β → Prop} {r : Reader α}
  {f : α → Reader β} {a : α}

/-- The default step of a loop is one, and every other expression is spelled by tokens. -/
def Met (tokens : List Token) (x : Expr) : Prop :=
  (∃ line, x = .number line 1) ∨ ∃ ts, SpelledBy tokens x ts

/-- Within the tokens, every result of the reader has the property. -/
def Meets (tokens : List Token) (r : Reader α) (P : α → Prop) : Prop :=
  Ensures (·.rest <:+ tokens) r fun a c => c.rest <:+ tokens ∧ P a

theorem meets_pure (h : P a) : Meets tokens (pure a) P := ensures_pure fun _ hc => ⟨hc, h⟩

theorem meets_bind (h : Meets tokens r P) (hf : ∀ a, P a → Meets tokens (f a) Q) :
    Meets tokens (r >>= f) Q :=
  ensures_bind h fun a c b c' hc hb => hf a hc.2 c b c' hc.1 hb

theorem meets_map {g : α → β} (h : Meets tokens r fun a => Q (g a)) : Meets tokens (g <$> r) Q :=
  ensures_map h

theorem suffix_tail {c : Cursor} {t : Token} {ts : List Token} (hc : c.rest <:+ tokens)
    (hrest : c.rest = t :: ts) : ts <:+ tokens :=
  (List.suffix_cons t ts).trans (hrest ▸ hc)

theorem meets_expect (f : Lexeme → Option α) (expected : String) :
    Meets tokens (expect f expected) fun _ => True :=
  ensures_expect fun _ _ _ _ hc hrest _ => ⟨suffix_tail hc hrest, trivial⟩

theorem meets_accept? (f : Lexeme → Option α) : Meets tokens (accept? f) fun _ => True :=
  ensures_accept? (fun _ _ _ _ hc hrest _ => ⟨suffix_tail hc hrest, trivial⟩)
    fun _ hc => ⟨hc, trivial⟩

theorem meets_acceptSameLine? (f : Lexeme → Option α) :
    Meets tokens (acceptSameLine? f) fun _ => True :=
  ensures_acceptSameLine? (fun _ _ _ _ hc hrest _ _ => ⟨suffix_tail hc hrest, trivial⟩)
    fun _ hc => ⟨hc, trivial⟩

theorem meets_currentLine : Meets tokens currentLine fun _ => True :=
  ensures_currentLine fun _ hc => ⟨hc, trivial⟩

theorem meets_moreOnLine : Meets tokens moreOnLine fun _ => True :=
  ensures_moreOnLine fun _ _ hc => ⟨hc, trivial⟩

theorem meets_expr (n : Nat) : Meets tokens (expr n) (Met tokens) := by
  intro c x c' hc hx
  obtain ⟨ts, hts⟩ := covers_expr hx
  obtain ⟨pre, hpre⟩ := hc
  obtain ⟨line, rest⟩ := c
  obtain ⟨line', post⟩ := c'
  have hrest : rest = ts ++ post := hts.rest
  subst hrest
  have htokens : tokens = pre ++ ts ++ post := by
    rw [← hpre, List.append_assoc]
  exact ⟨⟨pre ++ ts, htokens.symm⟩, .inr ⟨ts, ⟨pre, post, n, line, line', htokens, hx⟩, hts.joined,
    hts.covers⟩⟩

theorem meets_commaList (h : Meets tokens r P) (n : Nat) :
    Meets tokens (commaList r n) fun xs => ∀ x ∈ xs, P x := by
  induction n with
  | zero => exact meets_bind h fun x hx => meets_pure (by simpa using hx)
  | succ n ih =>
    refine meets_bind h fun x hx => meets_bind (meets_acceptSameLine? _) fun o _ => ?_
    cases o with
    | none => exact meets_pure (by simpa using hx)
    | some u => exact meets_bind ih fun xs hxs => meets_pure (by simpa using ⟨hx, hxs⟩)

/-- Every expression of the command is met in the tokens. -/
def ExprsMet (tokens : List Token) (c : Command) : Prop := ∀ x ∈ c.exprs, Met tokens x

theorem meets_forCommand (n : Nat) : Meets tokens (forCommand n) (ExprsMet tokens) := by
  have hend {var : String} {start stop step : Expr} (hstart : Met tokens start)
      (hstop : Met tokens stop) (hstep : Met tokens step) : Meets tokens (do
        closeParen
        pure (Command.forLoop var start stop step)) (ExprsMet tokens) :=
    meets_bind (meets_expect _ _) fun _ _ => meets_pure (by simp [ExprsMet, Command.exprs, *])
  unfold forCommand
  refine meets_bind meets_currentLine fun line _ => meets_bind (meets_expect _ _) fun _ _ =>
    meets_bind (meets_expect _ _) fun var _ => meets_bind (meets_expect _ _) fun _ _ =>
    meets_bind (meets_expr n) fun start hstart => meets_bind (meets_expect _ _) fun _ _ =>
    meets_bind (meets_expr n) fun stop hstop => meets_bind (meets_accept? _) fun o _ => ?_
  cases o with
  | none => exact meets_bind (meets_pure rfl) fun step hstep => hend hstart hstop (.inl ⟨line, hstep.symm⟩)
  | some u => exact meets_bind (meets_expr n) fun step hstep => hend hstart hstop hstep

theorem meets_outputCommand (n : Nat) : Meets tokens (outputCommand n) (ExprsMet tokens) :=
  meets_bind (meets_expect _ _) fun _ _ => meets_bind (meets_expr n) fun row hrow =>
    meets_bind (meets_expect _ _) fun _ _ => meets_bind (meets_expr n) fun col hcol =>
    meets_bind (meets_expect _ _) fun _ _ => meets_bind (meets_expr n) fun value hvalue =>
    meets_bind (meets_acceptSameLine? _) fun _ _ =>
      meets_pure (by simp [ExprsMet, Command.exprs, *])

theorem meets_inputCommand (n : Nat) : Meets tokens (inputCommand n) (ExprsMet tokens) := by
  refine meets_bind meets_currentLine fun line _ => meets_bind (meets_expr n) fun first hfirst =>
    meets_bind (meets_acceptSameLine? _) fun o _ => ?_
  cases o with
  | some u =>
    exact meets_bind (meets_expect _ _) fun var _ =>
      meets_pure (by simp [ExprsMet, Command.exprs, *])
  | none =>
    cases first with
    | name _ var => exact meets_pure (by simp [ExprsMet, Command.exprs])
    | _ => exact ensures_throw _

theorem meets_menuOptions (n k : Nat) : Meets tokens (menuOptions n k)
    fun options => ∀ o ∈ options, Met tokens o.text := by
  induction k with
  | zero => exact meets_pure (by simp)
  | succ k ih =>
    refine meets_bind (meets_acceptSameLine? _) fun o _ => ?_
    cases o with
    | none => exact meets_pure (by simp)
    | some u =>
      exact meets_bind (meets_expr n) fun text htext => meets_bind (meets_expect _ _) fun _ _ =>
        meets_bind (meets_expect _ _) fun target _ => meets_bind ih fun more hmore =>
        meets_pure (by simpa using ⟨htext, hmore⟩)

theorem meets_menuCommand (n : Nat) : Meets tokens (menuCommand n) (ExprsMet tokens) :=
  meets_bind (meets_expect _ _) fun _ _ => meets_bind (meets_expr n) fun title htitle =>
    meets_bind (meets_menuOptions n n) fun options hoptions =>
    meets_bind (meets_acceptSameLine? _) fun _ _ =>
      meets_pure (by simpa [ExprsMet, Command.exprs] using ⟨htitle, hoptions⟩)

theorem meets_dispCommand (n : Nat) : Meets tokens (dispCommand n) (ExprsMet tokens) := by
  refine meets_bind meets_moreOnLine fun more _ => ?_
  cases more with
  | true =>
    exact meets_bind (meets_commaList (meets_expr n) n) fun args hargs => meets_pure hargs
  | false => exact meets_pure (by simp [ExprsMet, Command.exprs])

theorem meets_pauseCommand (n : Nat) : Meets tokens (pauseCommand n) (ExprsMet tokens) := by
  refine meets_bind meets_moreOnLine fun more _ => ?_
  cases more with
  | true =>
    exact meets_bind (meets_expr n) fun value hvalue =>
      meets_pure (by simpa [ExprsMet, Command.exprs] using hvalue)
  | false => exact meets_pure (by simp [ExprsMet, Command.exprs])

theorem meets_single {g : Expr → Command} (hg : ∀ x, (g x).exprs = [x]) (n : Nat) :
    Meets tokens (g <$> expr n) (ExprsMet tokens) :=
  meets_map ((meets_expr n).imp fun x c hx => ⟨hx.1, by simpa [ExprsMet, hg] using hx.2⟩)

theorem meets_plain {g : α → Command} (hg : ∀ a, (g a).exprs = [])
    (h : Meets tokens r fun _ => True) : Meets tokens (g <$> r) (ExprsMet tokens) :=
  meets_map (h.imp fun a c ha => ⟨ha.1, by simp [ExprsMet, hg]⟩)

theorem meets_keyword {n : Nat} {word : String} {command : Reader Command}
    (h : keyword? n word = some command) : Meets tokens command (ExprsMet tokens) := by
  have mark {c : Command} (hc : c.exprs = []) : Meets tokens (pure c) (ExprsMet tokens) :=
    meets_pure (by simp [ExprsMet, hc])
  have hnames : Meets tokens (commaList identifier n) fun _ => True :=
    (meets_commaList (meets_expect _ _) n).imp fun _ _ hx => ⟨hx.1, trivial⟩
  unfold keyword? at h
  split at h <;> cases h
  · exact meets_single (fun _ => rfl) n
  · exact mark rfl
  · exact mark rfl
  · exact mark rfl
  · exact mark rfl
  · exact meets_single (fun _ => rfl) n
  · exact meets_single (fun _ => rfl) n
  · exact meets_forCommand n
  · exact meets_dispCommand n
  · exact meets_outputCommand n
  · exact meets_inputCommand n
  · exact meets_plain (fun _ => rfl) hnames
  · exact meets_pauseCommand n
  · exact meets_menuCommand n
  · exact meets_plain (fun _ => rfl) (meets_expect _ _)
  · exact meets_plain (fun _ => rfl) (meets_expect _ _)
  · exact meets_plain (fun _ => rfl) (meets_expect _ _)

theorem meets_commandAt (n : Nat) (t : Token) : Meets tokens (commandAt n t) (ExprsMet tokens) := by
  unfold commandAt
  split
  · split
    · next command h =>
      intro c a c' hc hr
      refine meets_keyword h c.advance a c' ?_ hr
      obtain ⟨line, rest⟩ := c
      cases rest with
      | nil => exact hc
      | cons u us => exact (List.suffix_cons u us).trans hc
    · exact meets_single (fun _ => rfl) n
  · exact meets_single (fun _ => rfl) n

theorem meets_statement (n : Nat) :
    Meets tokens (statement n) fun s => ExprsMet tokens s.command := by
  intro c a c' hc h
  unfold statement at h
  split at h
  · cases h
  · next t _ _ =>
    have hmap : Meets tokens (Statement.mk t.line <$> commandAt n t)
        fun s => ExprsMet tokens s.command := meets_map (meets_commandAt n t)
    exact hmap c a c' hc h

theorem meets_statements (n : Nat) :
    Meets tokens (statements n) fun sts => ∀ s ∈ sts, ExprsMet tokens s.command := by
  induction n with
  | zero => exact meets_pure (by simp)
  | succ n ih =>
    intro c sts c' hc h
    unfold statements at h
    split at h
    · cases h
      exact ⟨hc, by simp⟩
    · have hmore : Meets tokens (do
          let s ← statement (n + 1)
          let more ← statements n
          pure (s :: more)) fun sts => ∀ s ∈ sts, ExprsMet tokens s.command :=
        meets_bind (meets_statement (n + 1)) fun s hs => meets_bind ih fun more hmore =>
          meets_pure (by simpa using ⟨hs, hmore⟩)
      exact hmore c sts c' hc h

end Statements

end Reader

theorem exprsMet_of_readStatements {tokens : List Token} {sts : List Statement}
    (h : readStatements tokens = .ok sts) : ∀ s ∈ sts, Reader.ExprsMet tokens s.command := by
  unfold readStatements at h
  cases hr : Reader.statements tokens.length ⟨0, tokens⟩ with
  | error e =>
    rw [hr] at h
    cases h
  | ok q =>
    rw [hr] at h
    cases h
    exact (Reader.meets_statements tokens.length _ q.1 q.2 (List.suffix_refl tokens) hr).2

/-- An expression of an accepted program lies on one line, or its tokens break behind one that asks for
more or in front of a closing parenthesis. -/
theorem oneLine_or_breaks_of_compile {source : String} {p : Program}
    (h : Program.compile source = .ok p) {st : Statement} (hst : st ∈ p.statements) {x : Expr}
    (hx : x ∈ st.command.exprs) :
    x.OneLine ∨ ∃ tokens ts, scan source = .ok tokens ∧ SpelledBy tokens x ts ∧ BreaksInside ts := by
  obtain ⟨tokens, sts, hscan, hread, hlabels⟩ := parts_of_compile h
  obtain ⟨-, rfl⟩ := (ofStatements_eq_ok_iff sts p).mp hlabels
  rcases exprsMet_of_readStatements hread st hst x hx with ⟨line, rfl⟩ | ⟨ts, hts⟩
  · refine .inl fun l hl => ?_
    exact List.mem_singleton.mp hl
  · rcases hts.oneLine_or_breaks with hone | hbreaks
    · exact .inl hone
    · exact .inr ⟨tokens, ts, hscan, hts, hbreaks⟩

/-- A sum whose second operand stands on the next line. -/
def dangling : Program := ⟨[⟨1, .compute (.binary 1 .add (.name 1 "A") (.name 2 "B"))⟩], []⟩

theorem compile_dangling : Program.compile "A+\nB" = .ok dangling := by
  cbv

theorem not_oneLine_dangling : ¬ (Expr.binary 1 .add (.name 1 "A") (.name 2 "B")).OneLine := by
  intro h
  have hline := h 2 (by simp [Expr.lines])
  cases hline

/-- The tokens of the sum break behind its operator. -/
theorem breaks_of_dangling :
    Program.compile "A+\nB" = .ok dangling ∧
      ∃ tokens ts, scan "A+\nB" = .ok tokens ∧
        SpelledBy tokens (.binary 1 .add (.name 1 "A") (.name 2 "B")) ts ∧ BreaksInside ts :=
  ⟨compile_dangling, (oneLine_or_breaks_of_compile compile_dangling List.mem_cons_self
    List.mem_cons_self).resolve_left not_oneLine_dangling⟩

/-- An operator at the end of a line takes the next line into its expression. -/
theorem dangling_spans_lines :
    Program.compile "A+\nB" = .ok dangling ∧
      ∃ st ∈ dangling.statements, ∃ x ∈ st.command.exprs, ¬ x.OneLine :=
  ⟨compile_dangling, _, List.mem_cons_self, _, List.mem_cons_self, not_oneLine_dangling⟩

end PocketBasic
