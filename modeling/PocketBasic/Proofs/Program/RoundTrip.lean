import PocketBasic.Proofs.Program.StatementRoundTrip

/-!
# Written programs are read back

A program that is written one statement to a line is read back as the same program: the same statements
with the same expressions, and the same labels.
-/

namespace PocketBasic

open Reader

variable {sp : Spelling} {line n : Nat}

theorem length_lexemes_command_pos (sp : Spelling) (command : Command) :
    0 < (command.lexemes sp).length := by
  cases command with
  | compute x => exact length_lexemes_pos sp x true .assignment
  | input text var => cases text <;> exact Nat.succ_pos _
  | pause value => cases value <;> exact Nat.succ_pos _
  | _ => exact Nat.succ_pos _

theorem le_line_of_mem_lexemesFrom {sts : List Statement} {q : Nat × Lexeme}
    (h : q ∈ Program.lexemesFrom sp line sts) : line ≤ q.1 := by
  induction sts generalizing line with
  | nil => cases h
  | cons s rest ih =>
    rcases List.mem_append.mp h with hhere | hlater
    · obtain ⟨x, -, rfl⟩ := List.mem_map.mp hhere
      exact Nat.le_refl line
    · exact Nat.le_of_succ_le (ih hlater)

theorem nextOn_of_later {tokens : List Token} {sts : List Statement}
    (h : tokens.map (fun t => (t.line, t.lexeme)) = Program.lexemesFrom sp (line + 1) sts) :
    LineEnd (nextOn line tokens) := by
  cases tokens with
  | nil => rfl
  | cons t us =>
    have hmem : (t.line, t.lexeme) ∈ Program.lexemesFrom sp (line + 1) sts := by
      rw [← h]
      exact List.mem_cons_self
    have hlater : line + 1 ≤ t.line := le_line_of_mem_lexemesFrom hmem
    have hne : t.line ≠ line := by omega
    simp [LineEnd, nextOn, Cursor.sameLine?, hne]

theorem statements_of_lexemesFrom (sts : List Statement) {tokens : List Token} {l : Nat}
    (hvars : ∀ s ∈ sts, s.command.NamesVariable)
    (h : tokens.map (fun t => (t.line, t.lexeme)) = Program.lexemesFrom sp line sts)
    (hn : tokens.length ≤ n) :
    ∃ c, statements n ⟨l, tokens⟩ = .ok (Program.onLinesFrom line sts, c) := by
  induction sts generalizing line n l tokens with
  | nil =>
    rw [List.map_eq_nil_iff.mp h]
    cases n with
    | zero => exact ⟨_, rfl⟩
    | succ n => exact ⟨_, rfl⟩
  | cons s rest ih =>
    obtain ⟨ts, us, rfl, hts, hus⟩ := List.map_eq_append_iff.mp h
    have hlength : ts.length = (s.command.lexemes sp).length := by
      have hmap := congrArg List.length hts
      rwa [List.length_map, List.length_map] at hmap
    have hpos := length_lexemes_command_pos sp s.command
    rw [List.length_append] at hn
    obtain ⟨m, rfl⟩ : ∃ m, n = m + 1 := ⟨n - 1, by omega⟩
    have hread : statement (m + 1) ⟨l, ts ++ us⟩ =
        .ok (⟨line, s.command.onLine line⟩, ⟨line, us⟩) :=
      reads_command sp s.command (hvars s List.mem_cons_self) (by omega) ts us hts
        (nextOn_of_later hus)
    obtain ⟨c, hrest⟩ := ih (l := line) (n := m)
      (fun s' hs' => hvars s' (List.mem_cons_of_mem s hs')) hus (by omega)
    refine ⟨c, ?_⟩
    cases ts with
    | nil =>
      rw [← hlength] at hpos
      cases hpos
    | cons t ts =>
      rw [List.cons_append] at hread ⊢
      unfold statements
      refine bind_eq_ok_iff.mpr ⟨_, _, hread, ?_⟩
      exact bind_eq_ok_iff.mpr ⟨_, _, hrest, rfl⟩

theorem readStatements_of_lexemesFrom {sts : List Statement} {tokens : List Token}
    (hvars : ∀ s ∈ sts, s.command.NamesVariable)
    (h : tokens.map (fun t => (t.line, t.lexeme)) = Program.lexemesFrom sp 1 sts) :
    readStatements tokens = .ok (Program.onLinesFrom 1 sts) := by
  obtain ⟨c, hread⟩ := statements_of_lexemesFrom (l := 0) sts hvars h (Nat.le_refl _)
  rw [readStatements, hread]
  rfl

theorem declared?_onLine (command : Command) (line : Nat) :
    (command.onLine line).declared? = command.declared? := by
  cases command <;> rfl

theorem declaredLabels_onLinesFrom (i line : Nat) (sts : List Statement) :
    declaredLabels i (Program.onLinesFrom line sts) = declaredLabels i sts := by
  induction sts generalizing i line with
  | nil => rfl
  | cons s rest ih =>
    simp only [Program.onLinesFrom, declaredLabels, declared?_onLine, ih]

/-- A well-formed program is read back from its written form, with the lines it was written on. -/
theorem ofTokens_of_writtenAs {p : Program} {sp : Spelling} {tokens : List Token}
    (hp : p.WellFormed) (h : p.WrittenAs sp tokens) : Program.ofTokens tokens = .ok p.onLines := by
  have hread := readStatements_of_lexemesFrom hp.prompt h
  have hlabels := declaredLabels_onLinesFrom 0 1 p.statements
  rw [Program.ofTokens, hread]
  refine (ofStatements_eq_ok_iff _ _).mpr ⟨?_, ?_⟩
  · rw [hlabels]
    exact hp.distinct
  · rw [hlabels, Program.onLines, hp.labels]

def Spelling.plain : Spelling where
  number _ := "2"
  label name := .identifier name
  program name := .string name
  label_eq _ := rfl
  program_eq _ := rfl

def callOfKeyword : Program :=
  ⟨[⟨1, .compute (.assign 1
      (.binary 1 .mul (.call 1 (.name 1 "If") [.number 1 2])
        (.binary 1 .add (.name 1 "X") (.name 1 "and"))) 1 "Y")⟩,
    ⟨2, .label "A"⟩, ⟨3, .prompt ["X", "Y"]⟩], [("A", 1)]⟩

def tokensOfCall : List Token :=
  [⟨.openParen, 1, 1⟩, ⟨.identifier "If", 1, 2⟩, ⟨.closeParen, 1, 4⟩, ⟨.openParen, 1, 5⟩,
    ⟨.number "2" 2, 1, 6⟩, ⟨.closeParen, 1, 7⟩, ⟨.operator .times, 1, 8⟩, ⟨.openParen, 1, 9⟩,
    ⟨.identifier "X", 1, 10⟩, ⟨.operator .plus, 1, 11⟩, ⟨.identifier "and", 1, 12⟩,
    ⟨.closeParen, 1, 15⟩, ⟨.assignment, 1, 16⟩, ⟨.identifier "Y", 1, 18⟩,
    ⟨.identifier "Lbl", 2, 1⟩, ⟨.identifier "A", 2, 5⟩, ⟨.identifier "Prompt", 3, 1⟩,
    ⟨.identifier "X", 3, 8⟩, ⟨.comma, 3, 9⟩, ⟨.identifier "Y", 3, 10⟩]

theorem ofTokens_callOfKeyword :
    callOfKeyword.WellFormed ∧ callOfKeyword.WrittenAs .plain tokensOfCall ∧
      Program.ofTokens tokensOfCall = .ok callOfKeyword := by
  have hp : callOfKeyword.WellFormed :=
    ⟨by simp [callOfKeyword, Command.NamesVariable], by decide, rfl⟩
  have hlower : "If".toLower = "if" := by decide +kernel
  have hwritten : callOfKeyword.WrittenAs .plain tokensOfCall := by
    simp [Program.WrittenAs, callOfKeyword, tokensOfCall, Spelling.plain, Program.lexemesFrom,
      Command.lexemes, Expr.lexemes, Expr.lexemesEach, BinaryOp.lexemes, BinaryOp.level,
      BinaryOp.rightLevel, Level.rank, bracketedIf, bracketed, commaSeparated, keywords, hlower]
  have hread := ofTokens_of_writtenAs hp hwritten
  exact ⟨hp, hwritten, hread⟩

end PocketBasic
