import PocketBasic.Proofs.Program.CommandRoundTrip

/-!
# Written statements are read back

A keyword chooses the reader of a statement, and the rest of the line is what this reader takes. An
expression that is a statement starts with no keyword, so it is not taken for another statement.
-/

namespace PocketBasic

open Reader

variable {sp : Spelling} {l line N : Nat} {xs : List Lexeme}

theorem keyword?_eq_none {word : String} (h : keywords.contains word = false) :
    keyword? N word = none := by
  unfold keyword?
  split
  all_goals first | rfl | exact absurd h (by decide)

/-- A statement that starts with a keyword, in any case of its letters. -/
theorem reads_keyword {word : String} (lower : String) {r : Reader Command} {c : Command}
    {F : Option Lexeme → Prop} (hword : word.toLower = lower) (hr : keyword? N lower = some r)
    (h : Reads line line r xs F (pure c)) :
    Reads l line (statement N) (.identifier word :: xs) F (pure ⟨line, c⟩) := by
  have hhead : Reads l line (statement N) [.identifier word] Anything (Statement.mk line <$> r) := by
    apply reads_head
    rintro t ts rfl ht
    simp only [statement, commandAt, ht, hword, hr]
    rfl
  exact hhead.followed (h.mapped _)

theorem reads_compute (x : Expr) (hN : (x.lexemes sp true .assignment).length ≤ N) :
    Reads l line (statement N) (x.lexemes sp true .assignment) Level.assignment.Ends
      (pure ⟨line, .compute (x.onLine line)⟩) := by
  obtain ⟨y, hy, -, hplain⟩ := head?_lexemes sp x true .assignment
  obtain ⟨xs, hxs⟩ := List.head?_eq_some_iff.mp hy
  have hread : Reads l line (Statement.mk line <$> (Command.compute <$> expr N))
      (x.lexemes sp true .assignment) Level.assignment.Ends
      (pure ⟨line, .compute (x.onLine line)⟩) :=
    ((reads_expr sp x true hN).mapped _).mapped _
  rw [hxs] at hread ⊢
  refine hread.of_head ?_
  rintro t ts rfl ht
  have hcommand : commandAt N t = Command.compute <$> expr N := by
    unfold commandAt
    split
    · next name hname =>
      rw [keyword?_eq_none (hplain rfl name (ht.symm.trans hname))]
    · rfl
  simp only [statement, hcommand]

theorem reads_command (sp : Spelling) (command : Command) (hvars : command.NamesVariable)
    (hN : (command.lexemes sp).length ≤ N) :
    Reads l line (statement N) (command.lexemes sp) LineEnd
      (pure ⟨line, command.onLine line⟩) := by
  have hany {xs : List Lexeme} {r : Reader Command} {c : Command}
      (h : Reads line line r xs Anything (pure c)) : Reads line line r xs LineEnd (pure c) :=
    h.mono fun _ _ => trivial
  have hnothing (c : Command) : Reads line line (pure c) [] LineEnd (pure c) :=
    hany (reads_nothing (pure c))
  have hexpr (x : Expr) (h : (x.lexemes sp false .assignment).length < N) :
      Reads line line (expr N) (x.lexemes sp false .assignment) LineEnd (pure (x.onLine line)) :=
    (reads_expr sp x false (Nat.le_of_lt h)).mono (ends_of_lineEnd _)
  cases command with
  | compute x => exact (reads_compute x hN).mono (ends_of_lineEnd _)
  | ifTest cond =>
    exact reads_keyword "if" (by decide +kernel) rfl ((hexpr cond hN).mapped _)
  | whileLoop cond =>
    exact reads_keyword "while" (by decide +kernel) rfl ((hexpr cond hN).mapped _)
  | repeatLoop cond =>
    exact reads_keyword "repeat" (by decide +kernel) rfl ((hexpr cond hN).mapped _)
  | thenMark => exact reads_keyword "then" (by decide +kernel) rfl (hnothing _)
  | elseMark => exact reads_keyword "else" (by decide +kernel) rfl (hnothing _)
  | endMark => exact reads_keyword "end" (by decide +kernel) rfl (hnothing _)
  | clearHome => exact reads_keyword "clrhome" (by decide +kernel) rfl (hnothing _)
  | label name =>
    exact reads_keyword "lbl" (by decide +kernel) rfl (hany ((reads_label sp name).mapped _))
  | goto name =>
    exact reads_keyword "goto" (by decide +kernel) rfl (hany ((reads_label sp name).mapped _))
  | program name =>
    have hname : Reads line line (expect Lexeme.programName? "program name") [sp.program name]
        Anything (pure name) := reads_expect _ (sp.program_eq name)
    exact reads_keyword "prgm" (by decide +kernel) rfl (hany (hname.mapped _))
  | forLoop var start stop step =>
    refine reads_keyword "for" (by decide +kernel) rfl (hany (reads_forCommand ?_))
    simp only [Command.lexemes, bracketed, List.length_cons, List.length_append] at hN
    omega
  | output row col value =>
    refine reads_keyword "output" (by decide +kernel) rfl (hany (reads_outputCommand ?_))
    simp only [Command.lexemes, bracketed, List.length_cons, List.length_append] at hN
    omega
  | menu title options =>
    refine reads_keyword "menu" (by decide +kernel) rfl (hany (reads_menuCommand ?_))
    simp only [Command.lexemes, bracketed, List.length_cons, List.length_append] at hN
    omega
  | disp args =>
    have hlength : (commaSeparated (Expr.lexemesEach sp args)).length ≤ N := Nat.le_of_lt hN
    exact reads_keyword "disp" (by decide +kernel) rfl (reads_dispCommand args hlength)
  | prompt vars =>
    have hlength : vars.length ≤ N := by
      have hle := length_le_commaSeparated (vars.map fun v => [Lexeme.identifier v])
        fun xs hxs => by
          obtain ⟨v, -, rfl⟩ := List.mem_map.mp hxs
          exact Nat.one_pos
      rw [List.length_map] at hle
      simp only [Command.lexemes, List.length_cons] at hN
      omega
    exact reads_keyword "prompt" (by decide +kernel) rfl (reads_promptCommand hvars hlength)
  | input text var =>
    cases text with
    | none =>
      have hlength : ((Command.input none var).lexemes sp).tail.length ≤ N := Nat.le_of_lt hN
      exact reads_keyword "input" (by decide +kernel) rfl (reads_inputCommand none var hlength)
    | some x =>
      have hlength : ((Command.input (some x) var).lexemes sp).tail.length ≤ N :=
        Nat.le_of_lt hN
      exact reads_keyword "input" (by decide +kernel) rfl (reads_inputCommand (some x) var hlength)
  | pause value =>
    cases value with
    | none =>
      have hlength : ((Command.pause none).lexemes sp).tail.length ≤ N := Nat.zero_le _
      exact reads_keyword "pause" (by decide +kernel) rfl (reads_pauseCommand none hlength)
    | some x =>
      have hlength : ((Command.pause (some x)).lexemes sp).tail.length ≤ N := Nat.le_of_lt hN
      exact reads_keyword "pause" (by decide +kernel) rfl (reads_pauseCommand (some x) hlength)

end PocketBasic
