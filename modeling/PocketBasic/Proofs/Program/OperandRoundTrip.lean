import PocketBasic.Proofs.Program.Levels

/-!
# Terms and calls are read back

A term is read from its own lexemes. The calls that follow it are read one after the other, each with
its arguments up to the closing parenthesis.
-/

namespace PocketBasic

open Reader

variable {l line N : Nat} {xs : List Lexeme} {x : Expr}

theorem reads_term_number (ex operand : Reader Expr) (spelling : String) (value : Float) :
    Reads l line (term ex operand) [.number spelling value] Anything
      (pure (.number line value)) := by
  apply reads_head
  rintro t ts rfl ht
  simp only [term, ht]
  rfl

theorem reads_term_text (ex operand : Reader Expr) (text : String) :
    Reads l line (term ex operand) [.string text] Anything (pure (.text line text)) := by
  apply reads_head
  rintro t ts rfl ht
  simp only [term, ht]
  rfl

theorem reads_term_name (ex operand : Reader Expr) (id : String) :
    Reads l line (term ex operand) [.identifier id] Anything (pure (.name line id)) := by
  apply reads_head
  rintro t ts rfl ht
  simp only [term, ht]
  rfl

theorem reads_term_bracketed {ex operand : Reader Expr}
    (h : Reads line line ex xs Level.assignment.Ends (pure x)) :
    Reads l line (term ex operand) (bracketed xs) Anything (pure x) := by
  have hopen : Reads l line (term ex operand) [.openParen] Anything (do
      let x ← ex
      closeParen
      pure x) := by
    apply reads_head
    rintro t ts rfl ht
    simp only [term, ht]
  have hclose : Reads line line closeParen [.closeParen] Anything (pure ()) :=
    reads_expect _ rfl
  have hinside : Reads line line (do
      let x ← ex
      closeParen
      pure x) (xs ++ [.closeParen]) Anything (pure x) :=
    (h.result _).trans (hclose.result _) fun _ _ => ends_closeParen _
  exact hopen.followed hinside

theorem readsAt_of_term (hpos : 0 < xs.length)
    (h : ∀ l N, xs.length ≤ N + 1 →
      Reads l line (term (expr N) (operand N)) xs Anything (pure x)) :
    ReadsAt line .operand xs x := by
  intro l N hN
  exact ⟨N, Nat.add_le_add_left hpos N, (h l N hN).result _⟩

theorem readsAt_name (id : String) : ReadsAt line .operand [.identifier id] (.name line id) :=
  readsAt_of_term Nat.one_pos fun _ N _ => reads_term_name (expr N) (operand N) id

theorem readsAt_bracketed (h : ReadsAt line .assignment xs x) :
    ReadsAt line .operand (bracketed xs) x := by
  have hlength : (bracketed xs).length = xs.length + 2 := by simp [bracketed]
  refine readsAt_of_term (by omega) fun l N hN => ?_
  have hinside : xs.length ≤ N := by omega
  exact reads_term_bracketed (h line N N hinside hinside)

theorem length_le_commaSeparated (items : List (List Lexeme)) (h : ∀ xs ∈ items, 0 < xs.length) :
    items.length ≤ (commaSeparated items).length := by
  induction items with
  | nil => exact Nat.zero_le _
  | cons xs items ih =>
    have hxs := h xs List.mem_cons_self
    have hrest := ih fun ys hys => h ys (List.mem_cons_of_mem xs hys)
    cases items with
    | nil => exact hxs
    | cons ys items =>
      simp only [commaSeparated, List.length_append, List.length_cons] at hrest ⊢
      omega

theorem length_le_of_mem_commaSeparated {items : List (List Lexeme)} (h : xs ∈ items) :
    xs.length ≤ (commaSeparated items).length := by
  induction items with
  | nil => cases h
  | cons ys items ih =>
    cases items with
    | nil =>
      rw [List.mem_singleton.mp h]
      exact Nat.le_refl _
    | cons zs items =>
      simp only [commaSeparated, List.length_append, List.length_cons] at ih ⊢
      rcases List.mem_cons.mp h with rfl | hmem
      · omega
      · have := ih hmem
        omega

theorem head?_commaSeparated {items : List (List Lexeme)} {y : Lexeme} (h : xs.head? = some y) :
    (commaSeparated (xs :: items)).head? = some y := by
  cases items with
  | nil => exact h
  | cons ys items =>
    rw [commaSeparated, List.head?_append, h]
    · rfl
    · simp

/-- The arguments of a call, each of which starts with something else than a closing parenthesis. -/
theorem reads_arguments {w : Expr → List Lexeme} {v : Expr → Expr} {n : Nat} (args : List Expr)
    (hargs : ∀ a ∈ args, ReadsAt line .assignment (w a) (v a))
    (hheads : ∀ a ∈ args, ∃ y, (w a).head? = some y ∧ y.closeParen? = none)
    (hN : (commaSeparated (args.map w)).length ≤ N) (hn : args.length ≤ n + 1) :
    Reads line line (arguments (expr N) n) (commaSeparated (args.map w) ++ [.closeParen]) Anything
      (pure (args.map v)) := by
  cases args with
  | nil =>
    have hclose : Reads line line (accept? Lexeme.closeParen?) [.closeParen] Anything
        (pure (some ())) := reads_accept rfl
    exact hclose.result _
  | cons a args =>
    have hitems : ∀ b ∈ a :: args, ∀ l,
        Reads l line (expr N) (w b) Level.assignment.Ends (pure (v b)) := by
      intro b hb l
      have hle := Nat.le_trans (length_le_of_mem_commaSeparated (List.mem_map_of_mem hb)) hN
      exact hargs b hb l N N hle hle
    have hlist : Reads line line (commaList (expr N) n) (commaSeparated ((a :: args).map w))
        (fun o => Level.assignment.Ends o ∧ Misses Lexeme.comma? o) (pure ((a :: args).map v)) :=
      reads_commaList (ends_comma _) (a :: args) (List.cons_ne_nil _ _) hitems hn
    have hclose : Reads line line closeParen [.closeParen] Anything (pure ()) :=
      reads_expect _ rfl
    have hinside := (hlist.result fun args => do
      closeParen
      pure args).trans (hclose.result fun _ => pure ((a :: args).map v))
        fun _ _ => ⟨ends_closeParen _, rfl⟩
    have hnone : Reads line line (accept? Lexeme.closeParen?) [] _ (pure none) := reads_accept_none
    obtain ⟨y, hy, hclosed⟩ := hheads a List.mem_cons_self
    have hhead : (commaSeparated ((a :: args).map w) ++ [Lexeme.closeParen]).head? = some y := by
      rw [List.map_cons, List.head?_append, head?_commaSeparated hy]
      rfl
    have hall : Reads line line (arguments (expr N) n)
        ([] ++ (commaSeparated ((a :: args).map w) ++ [.closeParen])) Anything
        (pure ((a :: args).map v)) := by
      refine (hnone.result _).trans hinside fun o _ => ?_
      rw [hhead]
      exact ⟨rfl, hclosed⟩
    exact hall

theorem readsAt_call {w : Expr → List Lexeme} {v : Expr → Expr} {args : List Expr}
    (hfunction : ReadsAt line .operand xs x) (hpos : 0 < xs.length)
    (hargs : ∀ a ∈ args, ReadsAt line .assignment (w a) (v a))
    (hheads : ∀ a ∈ args, ∃ y, (w a).head? = some y ∧ y.closeParen? = none) :
    ReadsAt line .operand (xs ++ bracketed (commaSeparated (args.map w)))
      (.call line x (args.map v)) := by
  intro l N hN
  have hlength : (xs ++ bracketed (commaSeparated (args.map w))).length =
      xs.length + (commaSeparated (args.map w)).length + 2 := by
    simp [bracketed]
    omega
  have hcount : args.length ≤ (commaSeparated (args.map w)).length := by
    have hlist := length_le_commaSeparated (args.map w) fun ys hys => by
      obtain ⟨a, ha, rfl⟩ := List.mem_map.mp hys
      obtain ⟨y, hy, -⟩ := hheads a ha
      exact List.length_pos_of_mem (List.mem_of_head? hy)
    rwa [List.length_map] at hlist
  obtain ⟨j, hj, hr⟩ := hfunction l N (by omega)
  obtain ⟨m, rfl⟩ : ∃ m, j = m + 1 := ⟨j - 1, by omega⟩
  refine ⟨m, by omega, ?_⟩
  have hopen : Reads line line (acceptSameLine? Lexeme.openParen?) [.openParen] Anything
      (pure (some ())) := reads_acceptSameLine rfl
  have hlist : Reads line line (arguments (expr N) m)
      (commaSeparated (args.map w) ++ [.closeParen]) Anything (pure (args.map v)) :=
    reads_arguments args hargs hheads (by omega) (by omega)
  have hcall : Reads line line (do
      let line ← currentLine
      let args ← arguments (expr N) m
      calls (expr N) m (.call line x args)) (commaSeparated (args.map w) ++ [.closeParen]) Anything
      (calls (expr N) m (.call line x (args.map v))) :=
    (reads_currentLine.result _).followed (hlist.result _)
  exact hr.followed ((hopen.result _).followed hcall)

end PocketBasic
