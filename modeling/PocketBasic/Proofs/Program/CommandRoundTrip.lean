import PocketBasic.Proofs.Program.ExprRoundTrip

/-!
# The parts of a written statement are read back

After its keyword, a statement is expressions, names and labels with commas and parentheses between
them. Each reader takes what belongs to its own statement, up to the end of the line.
-/

namespace PocketBasic

open Reader

variable {sp : Spelling} {l line N : Nat}

def LineEnd : Option Lexeme → Prop := fun o => o = none

theorem reads_expr (sp : Spelling) (x : Expr) (leading : Bool)
    (hN : (x.lexemes sp leading .assignment).length ≤ N) :
    Reads l line (expr N) (x.lexemes sp leading .assignment) Level.assignment.Ends
      (pure (x.onLine line)) :=
  readsAt_lexemes sp x line leading .assignment l N N hN hN

theorem ends_of_lineEnd (place : Level) (o : Option Lexeme) (h : LineEnd o) : place.Ends o := by
  rw [h]
  exact ends_none place

theorem commaSeparated_cons (xs : List Lexeme) (more : List (List Lexeme)) :
    commaSeparated (xs :: more) = xs ++ more.flatMap (.comma :: ·) := by
  induction more generalizing xs with
  | nil => simp [commaSeparated]
  | cons ys more ih =>
    change xs ++ .comma :: commaSeparated (ys :: more) = _
    rw [ih, List.flatMap_cons, List.cons_append]

theorem reads_comma : Reads l line comma [.comma] Anything (pure ()) := reads_expect _ rfl

theorem reads_openParen : Reads l line openParen [.openParen] Anything (pure ()) :=
  reads_expect _ rfl

theorem reads_closeParen : Reads l line closeParen [.closeParen] Anything (pure ()) :=
  reads_expect _ rfl

theorem reads_identifier (id : String) :
    Reads l line identifier [.identifier id] Anything (pure id) :=
  reads_expect _ rfl

theorem reads_label (sp : Spelling) (name : String) :
    Reads l line label [sp.label name] Anything (pure name) :=
  reads_expect _ (sp.label_eq name)

theorem reads_forCommand {var : String} {start stop step : Expr}
    (hN : (commaSeparated ([.identifier var] :: Expr.lexemesEach sp [start, stop, step])).length ≤ N) :
    Reads line line (forCommand N)
      (bracketed (commaSeparated ([.identifier var] :: Expr.lexemesEach sp [start, stop, step])))
      Anything (pure (.forLoop var (start.onLine line) (stop.onLine line) (step.onLine line))) := by
  simp only [Expr.lexemesEach, commaSeparated, bracketed, List.length_append, List.length_cons,
    List.append_assoc, List.cons_append, List.nil_append] at hN ⊢
  have hmore : Reads line line (accept? Lexeme.comma?) [.comma] Anything (pure (some ())) :=
    reads_accept rfl
  refine (reads_currentLine.result _).followed ?_
  refine (reads_openParen.result _).followed ?_
  refine ((reads_identifier var).result _).followed ?_
  refine (reads_comma.result _).followed ?_
  refine ((reads_expr sp start false (by omega)).result _).trans ?_ fun _ _ => ends_comma _
  refine (reads_comma.result _).followed ?_
  refine ((reads_expr sp stop false (by omega)).result _).trans ?_ fun _ _ => ends_comma _
  refine (hmore.result _).followed ?_
  refine ((reads_expr sp step false (by omega)).result _).trans ?_ fun _ _ => ends_closeParen _
  exact reads_closeParen.result _

theorem reads_outputCommand {row col value : Expr}
    (hN : (commaSeparated (Expr.lexemesEach sp [row, col, value])).length ≤ N) :
    Reads line line (outputCommand N)
      (bracketed (commaSeparated (Expr.lexemesEach sp [row, col, value]))) Anything
      (pure (.output (row.onLine line) (col.onLine line) (value.onLine line))) := by
  simp only [Expr.lexemesEach, commaSeparated, bracketed, List.length_append, List.length_cons,
    List.append_assoc, List.cons_append] at hN ⊢
  have hclose : Reads line line (acceptSameLine? Lexeme.closeParen?) [.closeParen] Anything
      (pure (some ())) := reads_acceptSameLine rfl
  refine (reads_openParen.result _).followed ?_
  refine ((reads_expr sp row false (by omega)).result _).trans ?_ fun _ _ => ends_comma _
  refine (reads_comma.result _).followed ?_
  refine ((reads_expr sp col false (by omega)).result _).trans ?_ fun _ _ => ends_comma _
  refine (reads_comma.result _).followed ?_
  refine ((reads_expr sp value false (by omega)).result _).trans ?_ fun _ _ => ends_closeParen _
  exact hclose.result _

theorem reads_inputCommand (text : Option Expr) (var : String)
    (hN : ((Command.input text var).lexemes sp).tail.length ≤ N) :
    Reads line line (inputCommand N) ((Command.input text var).lexemes sp).tail LineEnd
      (pure (.input (text.map (·.onLine line)) var)) := by
  cases text with
  | none =>
    have hname : Reads line line (expr N) [.identifier var] LineEnd (pure (.name line var)) :=
      (reads_expr sp (.name 0 var) false hN).mono (ends_of_lineEnd _)
    have hnone : Reads line line (acceptSameLine? Lexeme.comma?) [] LineEnd (pure none) :=
      reads_acceptSameLine_none.mono fun o h => by
        rw [h]
        rfl
    refine (reads_currentLine.result _).followed ?_
    exact (hname.result _).andThen (hnone.result _)
  | some x =>
    have hlength : ((Command.input (some x) var).lexemes sp).tail.length =
        (x.lexemes sp false .assignment).length + 2 := by
      simp [Command.lexemes]
    have hcomma : Reads line line (acceptSameLine? Lexeme.comma?) [.comma] Anything
        (pure (some ())) := reads_acceptSameLine rfl
    have hall : Reads line line (inputCommand N) ((Command.input (some x) var).lexemes sp).tail
        Anything (pure (.input (some (x.onLine line)) var)) := by
      refine (reads_currentLine.result _).followed ?_
      refine ((reads_expr sp x false (by omega)).result _).trans ?_ fun _ _ => ends_comma _
      refine (hcomma.result _).followed ?_
      exact (reads_identifier var).result _
    exact hall.mono fun _ _ => trivial

theorem reads_menuOptions (options : List MenuOption) (k : Nat) (hk : options.length ≤ k)
    (hN : ∀ o ∈ options, (o.text.lexemes sp false .assignment).length ≤ N) :
    Reads line line (menuOptions N k)
      (options.flatMap fun o => .comma :: o.lexemes sp) (Misses Lexeme.comma?)
      (pure (options.map fun o => ⟨o.text.onLine line, o.label⟩)) := by
  induction options generalizing k with
  | nil =>
    cases k with
    | zero => exact (reads_nothing (pure [])).mono fun _ _ => trivial
    | succ k => exact reads_acceptSameLine_none.result _
  | cons o options ih =>
    obtain ⟨m, rfl⟩ : ∃ m, k = m + 1 := ⟨k - 1, by simp at hk; omega⟩
    have hrest := ih m (by simpa using hk) fun p hp => hN p (List.mem_cons_of_mem o hp)
    have htext : Reads line line (expr N) (o.text.lexemes sp false .assignment)
        Level.assignment.Ends (pure (o.text.onLine line)) :=
      reads_expr sp o.text false (hN o List.mem_cons_self)
    have hcomma : Reads line line (acceptSameLine? Lexeme.comma?) [.comma] Anything
        (pure (some ())) := reads_acceptSameLine rfl
    simp only [List.flatMap_cons, MenuOption.lexemes, List.cons_append, List.append_assoc,
      List.nil_append]
    refine (hcomma.result _).followed ?_
    refine (htext.result _).trans ?_ fun _ _ => ends_comma _
    refine (reads_comma.result _).followed ?_
    refine ((reads_label sp o.label).result _).followed ?_
    exact hrest.result _

theorem reads_menuCommand {title : Expr} {options : List MenuOption}
    (hN : (commaSeparated (title.lexemes sp false .assignment ::
      options.map (MenuOption.lexemes sp))).length ≤ N) :
    Reads line line (menuCommand N) (bracketed (commaSeparated
      (title.lexemes sp false .assignment :: options.map (MenuOption.lexemes sp)))) Anything
      (pure (.menu (title.onLine line) (options.map fun o => ⟨o.text.onLine line, o.label⟩))) := by
  have htext (o : MenuOption) (ho : o ∈ options) :
      (o.text.lexemes sp false .assignment).length ≤ N := by
    have hle := length_le_of_mem_commaSeparated
      (List.mem_cons_of_mem (title.lexemes sp false .assignment)
        (List.mem_map_of_mem (f := MenuOption.lexemes sp) ho))
    simp only [MenuOption.lexemes, List.length_append] at hle
    omega
  have hcount : options.length ≤ N := by
    have hle := length_le_commaSeparated
      (title.lexemes sp false .assignment :: options.map (MenuOption.lexemes sp)) fun xs hxs => by
        rcases List.mem_cons.mp hxs with rfl | hmem
        · exact length_lexemes_pos sp title false .assignment
        · obtain ⟨o, -, rfl⟩ := List.mem_map.mp hmem
          simp [MenuOption.lexemes]
    rw [List.length_cons, List.length_map] at hle
    omega
  have htitle : Reads line line (expr N) (title.lexemes sp false .assignment)
      Level.assignment.Ends (pure (title.onLine line)) := by
    have hle := length_le_of_mem_commaSeparated (List.mem_cons_self
      (a := title.lexemes sp false .assignment) (l := options.map (MenuOption.lexemes sp)))
    exact reads_expr sp title false (Nat.le_trans hle hN)
  have hoptions : Reads line line (menuOptions N N)
      (options.flatMap fun o => .comma :: o.lexemes sp) (Misses Lexeme.comma?)
      (pure (options.map fun o => ⟨o.text.onLine line, o.label⟩)) :=
    reads_menuOptions options N hcount htext
  have hclose : Reads line line (acceptSameLine? Lexeme.closeParen?) [.closeParen] Anything
      (pure (some ())) := reads_acceptSameLine rfl
  have hrest : Reads line line (do
      let options ← menuOptions N N
      let _ ← acceptSameLine? Lexeme.closeParen?
      pure (Command.menu (title.onLine line) options))
      ((options.flatMap fun o => .comma :: o.lexemes sp) ++ [.closeParen]) Anything
      (pure (.menu (title.onLine line) (options.map fun o => ⟨o.text.onLine line, o.label⟩))) :=
    (hoptions.result _).trans (hclose.result _) fun _ _ => rfl
  rw [commaSeparated_cons, bracketed, List.flatMap_map, List.append_assoc]
  refine (reads_openParen.result _).followed ((htitle.result _).trans hrest fun o _ => ?_)
  cases options with
  | nil => exact ends_closeParen _
  | cons p options => exact ends_comma _

theorem reads_dispCommand (args : List Expr)
    (hN : (commaSeparated (Expr.lexemesEach sp args)).length ≤ N) :
    Reads line line (dispCommand N) (commaSeparated (Expr.lexemesEach sp args)) LineEnd
      (pure (.disp (args.map (·.onLine line)))) := by
  rw [Expr.lexemesEach_eq_map] at hN ⊢
  cases args with
  | nil =>
    have hend : Reads line line moreOnLine [] LineEnd (pure false) :=
      reads_moreOnLine.mono fun o h => by
        rw [h]
        rfl
    exact hend.result _
  | cons x args =>
    have hmore : Reads line line moreOnLine [] (fun o => o.isSome = true) (pure true) :=
      reads_moreOnLine
    have hitems (y : Expr) (hy : y ∈ x :: args) (l : Nat) : Reads l line (expr N)
        (y.lexemes sp false .assignment) Level.assignment.Ends (pure (y.onLine line)) := by
      have hle := length_le_of_mem_commaSeparated
        (List.mem_map_of_mem (f := fun x => x.lexemes sp false .assignment) hy)
      exact reads_expr sp y false (Nat.le_trans hle hN)
    have hcount : (x :: args).length ≤ N + 1 := by
      have hle := length_le_commaSeparated ((x :: args).map (·.lexemes sp false .assignment))
        fun xs hxs => by
          obtain ⟨y, -, rfl⟩ := List.mem_map.mp hxs
          exact length_lexemes_pos sp y false .assignment
      rw [List.length_map] at hle
      omega
    have hlist : Reads line line (commaList (expr N) N)
        (commaSeparated ((x :: args).map (·.lexemes sp false .assignment))) LineEnd
        (pure ((x :: args).map (·.onLine line))) := by
      refine (reads_commaList (ends_comma _) _ (List.cons_ne_nil _ _) hitems hcount).mono ?_
      intro o h
      exact ⟨ends_of_lineEnd _ o h, by rw [h]; rfl⟩
    obtain ⟨y, hy, -⟩ := head?_lexemes sp x false .assignment
    have hall : Reads line line (dispCommand N)
        ([] ++ commaSeparated ((x :: args).map (·.lexemes sp false .assignment))) LineEnd
        (pure (.disp ((x :: args).map (·.onLine line)))) := by
      refine (hmore.result _).trans (hlist.result _) fun o _ => ?_
      rw [List.map_cons, head?_commaSeparated hy]
      rfl
    exact hall

theorem reads_pauseCommand (value : Option Expr)
    (hN : ((Command.pause value).lexemes sp).tail.length ≤ N) :
    Reads line line (pauseCommand N) ((Command.pause value).lexemes sp).tail LineEnd
      (pure (.pause (value.map (·.onLine line)))) := by
  cases value with
  | none =>
    have hend : Reads line line moreOnLine [] LineEnd (pure false) :=
      reads_moreOnLine.mono fun o h => by
        rw [h]
        rfl
    exact hend.result _
  | some x =>
    have hmore : Reads line line moreOnLine [] (fun o => o.isSome = true) (pure true) :=
      reads_moreOnLine
    have hvalue : Reads line line (expr N) (x.lexemes sp false .assignment) LineEnd
        (pure (x.onLine line)) := (reads_expr sp x false hN).mono (ends_of_lineEnd _)
    obtain ⟨y, hy, -⟩ := head?_lexemes sp x false .assignment
    have hall : Reads line line (pauseCommand N) ([] ++ x.lexemes sp false .assignment) LineEnd
        (pure (.pause (some (x.onLine line)))) := by
      refine (hmore.result _).trans (hvalue.result _) fun o _ => ?_
      rw [hy]
      rfl
    exact hall

theorem reads_promptCommand {vars : List String} (hne : vars ≠ []) (hN : vars.length ≤ N) :
    Reads line line (.prompt <$> commaList identifier N)
      (commaSeparated (vars.map fun v => [.identifier v])) LineEnd (pure (Command.prompt vars)) := by
  have hlist : Reads line line (commaList identifier N)
      (commaSeparated (vars.map fun v => [.identifier v])) LineEnd (pure (vars.map id)) := by
    refine (reads_commaList (F := Anything) trivial vars hne
      (fun v _ _ => reads_identifier v) (Nat.le_succ_of_le hN)).mono ?_
    intro o h
    exact ⟨trivial, by rw [h]; rfl⟩
  rw [List.map_id] at hlist
  exact hlist.mapped _

end PocketBasic
