import PocketBasic.Proofs.Program.Arrows

/-!
# The arrows of statements

The commands and the list of statements are counted like the expressions in them. The list is read up to the
last token, so the assignments of a program are as many as the arrows of its text.
-/

namespace PocketBasic

namespace Reader

variable {α : Type} {tokens : List Token} {k : Nat} {r : Reader α}

/-- The reader takes as many arrows as its command has assignments. -/
def TalliesCommand (tokens : List Token) (r : Reader Command) : Prop :=
  ∀ k, Tallies tokens k r fun c => k + c.assignments.length

theorem tallies_forCommand (n : Nat) : TalliesCommand tokens (forCommand n) := by
  intro k
  have hend {j : Nat} {var : String} {start stop step : Expr}
      (hj : j = k + (Command.forLoop var start stop step).assignments.length) : Tallies tokens j (do
        closeParen
        pure (Command.forLoop var start stop step)) fun c => k + c.assignments.length :=
    tallies_bind (tallies_expect rfl _) fun _ => tallies_pure hj.symm
  unfold forCommand
  refine tallies_currentLine_bind fun line _ => tallies_bind (tallies_expect rfl _) fun _ =>
    tallies_bind (tallies_expect rfl _) fun var => tallies_bind (tallies_expect rfl _) fun _ =>
    tallies_bind (tallies_expr n k) fun start => tallies_bind (tallies_expect rfl _) fun _ =>
    tallies_bind (tallies_expr n _) fun stop => tallies_bind (tallies_accept? rfl) fun o => ?_
  cases o with
  | none =>
    have hcount : k + start.assignments.length + stop.assignments.length =
        k + (Command.forLoop var start stop (.number line 1)).assignments.length := by
      simp [Command.assignments, Command.exprs, Expr.assignments, Nat.add_assoc]
    exact hend hcount
  | some u =>
    refine tallies_bind (tallies_expr n _) fun step => hend ?_
    simp [Command.assignments, Command.exprs, Nat.add_assoc]

theorem tallies_outputCommand (n : Nat) : TalliesCommand tokens (outputCommand n) := by
  refine fun k => tallies_bind (tallies_expect rfl _) fun _ =>
    tallies_bind (tallies_expr n k) fun row => tallies_bind (tallies_expect rfl _) fun _ =>
    tallies_bind (tallies_expr n _) fun col => tallies_bind (tallies_expect rfl _) fun _ =>
    tallies_bind (tallies_expr n _) fun value =>
    tallies_bind (tallies_acceptSameLine? rfl) fun _ => tallies_pure ?_
  simp [Command.assignments, Command.exprs, Nat.add_assoc]

theorem tallies_inputCommand (n : Nat) : TalliesCommand tokens (inputCommand n) := by
  refine fun k => tallies_currentLine_bind fun line hline =>
    tallies_bind (tallies_expr n k) fun first => tallies_bind (tallies_acceptSameLine? rfl) fun o => ?_
  cases o with
  | some u =>
    refine tallies_bind (tallies_expect rfl _) fun var => tallies_pure ?_
    simp [Command.assignments, Command.exprs]
  | none =>
    cases first with
    | name _ var => exact tallies_pure rfl
    | _ => exact fun c _ => .error ⟨rfl, hline⟩

theorem tallies_menuOptions (n j k : Nat) : Tallies tokens k (menuOptions n j)
    fun options => k + (options.flatMap (·.text.assignments)).length := by
  induction j generalizing k with
  | zero => exact tallies_pure rfl
  | succ j ih =>
    refine tallies_bind (tallies_acceptSameLine? rfl) fun o => ?_
    cases o with
    | none => exact tallies_pure rfl
    | some u =>
      refine tallies_bind (tallies_expr n k) fun text => tallies_bind (tallies_expect rfl _) fun _ =>
        tallies_bind (tallies_expect rfl _) fun target => tallies_bind (ih _) fun more =>
        tallies_pure ?_
      rw [List.flatMap_cons, List.length_append, Nat.add_assoc]

theorem tallies_menuCommand (n : Nat) : TalliesCommand tokens (menuCommand n) := by
  refine fun k => tallies_bind (tallies_expect rfl _) fun _ =>
    tallies_bind (tallies_expr n k) fun title => tallies_bind (tallies_menuOptions n n _) fun options =>
    tallies_bind (tallies_acceptSameLine? rfl) fun _ => tallies_pure ?_
  simp [Command.assignments, Command.exprs, List.flatMap_map, Nat.add_assoc]

theorem tallies_dispCommand (n : Nat) : TalliesCommand tokens (dispCommand n) := by
  refine fun k => tallies_bind tallies_moreOnLine fun more => ?_
  cases more with
  | true =>
    refine tallies_bind (tallies_commaList (tallies_expr n) n k) fun args => tallies_pure ?_
    rw [← length_assignmentsEach, Expr.assignmentsEach_eq_flatMap]
    rfl
  | false => exact tallies_pure rfl

theorem tallies_pauseCommand (n : Nat) : TalliesCommand tokens (pauseCommand n) := by
  refine fun k => tallies_bind tallies_moreOnLine fun more => ?_
  cases more with
  | true =>
    refine tallies_bind (tallies_expr n k) fun value => tallies_pure ?_
    simp [Command.assignments, Command.exprs]
  | false => exact tallies_pure rfl

theorem tallies_single {g : Expr → Command} (hg : ∀ x, (g x).exprs = [x]) (n : Nat) :
    TalliesCommand tokens (g <$> expr n) := by
  intro k
  have hcount (x : Expr) : (g x).assignments = x.assignments := by
    rw [Command.assignments, hg, List.flatMap_cons, List.flatMap_nil, List.append_nil]
  refine tallies_map ?_
  simp only [hcount]
  exact tallies_expr n k

theorem tallies_plain {g : α → Command} (hg : ∀ a, (g a).exprs = [])
    (h : ∀ k, Tallies tokens k r fun _ => k) : TalliesCommand tokens (g <$> r) := by
  intro k
  have hcount (a : α) : (g a).assignments = [] := by
    rw [Command.assignments, hg, List.flatMap_nil]
  refine tallies_map ?_
  simp only [hcount]
  exact h k

theorem tallies_keyword {n : Nat} {word : String} {command : Reader Command}
    (h : keyword? n word = some command) : TalliesCommand tokens command := by
  have mark {c : Command} (hc : c.assignments = []) : TalliesCommand tokens (pure c) :=
    fun k => tallies_pure (by rw [hc]; rfl)
  have hnames (k : Nat) : Tallies tokens k (commaList identifier n) fun _ => k := by
    have hlist : Tallies tokens k (commaList identifier n) fun xs => k + (xs.map fun _ => 0).sum :=
      tallies_commaList (fun _ => tallies_expect rfl _) n k
    simpa using hlist
  unfold keyword? at h
  split at h <;> cases h
  · exact tallies_single (fun _ => rfl) n
  · exact mark rfl
  · exact mark rfl
  · exact mark rfl
  · exact mark rfl
  · exact tallies_single (fun _ => rfl) n
  · exact tallies_single (fun _ => rfl) n
  · exact tallies_forCommand n
  · exact tallies_dispCommand n
  · exact tallies_outputCommand n
  · exact tallies_inputCommand n
  · exact tallies_plain (fun _ => rfl) hnames
  · exact tallies_pauseCommand n
  · exact tallies_menuCommand n
  · exact tallies_plain (fun _ => rfl) fun _ => tallies_expect rfl _
  · exact tallies_plain (fun _ => rfl) fun _ => tallies_expect rfl _
  · exact tallies_plain (fun _ => rfl) fun _ => tallies_expect rfl _

theorem tallies_statement (n : Nat) :
    Tallies tokens k (statement n) fun s => k + s.command.assignments.length := by
  intro c hc
  unfold statement
  split
  · exact .error (hc.misread "expression")
  · next t ts hrest =>
    have hmap {command : Reader Command} (h : TalliesCommand tokens command) :
        Tallies tokens k (Statement.mk t.line <$> command) fun s => k + s.command.assignments.length :=
      tallies_map (h k)
    have hcompute : TalliesCommand tokens (.compute <$> expr n) := tallies_single (fun _ => rfl) n
    unfold commandAt
    split
    · next name hlexeme =>
      split
      · next command hkeyword =>
        -- The keyword is a word, so no arrow is passed over before the command.
        have hskip := hc.skip hrest (by unfold Token.isArrow; rw [hlexeme])
        have hadvance : c.advance = ⟨t.line, ts⟩ := by
          unfold Cursor.advance
          rw [hrest]
        have hread := hmap (tallies_keyword hkeyword) _ hskip
        rw [← hadvance] at hread
        exact hread
      · exact hmap hcompute c hc
    · exact hmap hcompute c hc

theorem tallies_statements (n k : Nat) :
    Tallies tokens k (statements n) fun sts => k + (sts.flatMap (·.command.assignments)).length := by
  induction n generalizing k with
  | zero => exact tallies_pure rfl
  | succ n ih =>
    have hmore : Tallies tokens k (do
        let s ← statement (n + 1)
        let more ← statements n
        pure (s :: more)) fun sts => k + (sts.flatMap (·.command.assignments)).length := by
      refine tallies_bind (tallies_statement (n + 1)) fun s => tallies_bind (ih _) fun more =>
        tallies_pure ?_
      rw [List.flatMap_cons, List.length_append, Nat.add_assoc]
    intro c hc
    unfold statements
    split
    · exact .ok hc
    · exact hmore c hc

theorem rest_of_statements {n : Nat} {c c' : Cursor} {sts : List Statement} (hn : c.rest.length ≤ n)
    (h : statements n c = .ok (sts, c')) : c'.rest = [] := by
  induction n generalizing c sts with
  | zero =>
    cases h
    exact List.eq_nil_of_length_eq_zero (Nat.le_zero.mp hn)
  | succ n ih =>
    obtain ⟨line, rest⟩ := c
    cases rest with
    | nil =>
      cases h
      rfl
    | cons t ts =>
      simp only [List.length_cons] at hn
      cases hs : statement (n + 1) ⟨line, t :: ts⟩ with
      | error e =>
        rw [statements_cons_error hs] at h
        cases h
      | ok q =>
        obtain ⟨s, c₂⟩ := q
        rw [statements_cons_ok hs] at h
        have hfollows : Follows 0 [] (ts.length + 1) 1 (Statement.shift 0) (statement (n + 1))
            (statement (n + 1)) := follows_statement (by omega) (by omega)
        obtain ⟨-, -, hlength⟩ := hfollows.ok _ s c₂ (Cursor.apart_nil 0 _) (Nat.le_refl _) hs
        simp only [List.length_cons] at hlength
        cases hmore : statements n c₂ with
        | error e =>
          rw [hmore] at h
          cases h
        | ok q =>
          rw [hmore] at h
          cases h
          exact ih (by omega) hmore

end Reader

/-- A list of statements has an assignment for each arrow of its tokens, or there is a syntax error on the
line of a token. -/
theorem told_readStatements (tokens : List Token) :
    (∀ sts, readStatements tokens = .ok sts →
      (sts.flatMap (·.command.assignments)).length = arrows tokens) ∧
      ∀ e, readStatements tokens = .error e → e.Misread tokens := by
  cases tokens with
  | nil =>
    refine ⟨fun sts h => ?_, fun e h => by cases h⟩
    cases h
    rfl
  | cons t ts =>
    -- The first statement does not depend on the line of the cursor, so this may be the line of `t`.
    have hline : Reader.statements (t :: ts).length ⟨0, t :: ts⟩ =
        Reader.statements (t :: ts).length ⟨t.line, t :: ts⟩ :=
      Reader.headOnly_bind (Reader.headOnly_statement _) _ 0 t.line t ts
    have hstart : Cursor.Behind (t :: ts) 0 ⟨t.line, t :: ts⟩ :=
      ⟨List.suffix_refl _, Nat.zero_add _, t, List.mem_cons_self, rfl⟩
    have htold := Reader.tallies_statements (t :: ts).length 0 _ hstart
    unfold readStatements
    rw [hline]
    cases hread : Reader.statements (t :: ts).length ⟨t.line, t :: ts⟩ with
    | error e =>
      rw [hread] at htold
      cases htold with
      | error he =>
        refine ⟨fun _ h => (by cases h), fun e' h => ?_⟩
        cases h
        exact he
    | ok q =>
      obtain ⟨sts, c⟩ := q
      rw [hread] at htold
      cases htold with
      | ok hc =>
        refine ⟨fun sts' h => ?_, fun e h => by cases h⟩
        cases h
        have hcount := hc.count
        have hrest : c.rest = [] := by
          refine Reader.rest_of_statements ?_ hread
          exact Nat.le_refl (t :: ts).length
        rw [hrest] at hcount
        simpa [arrows] using hcount

end PocketBasic
