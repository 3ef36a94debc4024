import PocketBasic.Proofs.Program.Labels

/-!
# What readers return

`Reader.Yields r P` says that every result of the reader `r` has the property `P`. It follows the way a
reader is put together, so a property of the last part is a property of the whole. From it, every Prompt
of an accepted program names a variable.
-/

namespace PocketBasic

theorem bind_eq_ok_iff {σ ε α β : Type} {r : StateT σ (Except ε) α} {f : α → StateT σ (Except ε) β}
    {c c' : σ} {b : β} :
    (r >>= f) c = .ok (b, c') ↔ ∃ a c₁, r c = .ok (a, c₁) ∧ f a c₁ = .ok (b, c') := by
  change (r c >>= fun q => f q.1 q.2) = .ok (b, c') ↔ _
  cases hr : r c with
  | error e =>
    constructor
    · intro h
      cases h
    · rintro ⟨a, c₁, h, -⟩
      cases h
  | ok q =>
    obtain ⟨a, c₁⟩ := q
    constructor
    · intro h
      exact ⟨a, c₁, rfl, h⟩
    · rintro ⟨a', c₁', h, hf⟩
      cases h
      exact hf

namespace Reader

variable {α β : Type} {r : Reader α} {f : α → Reader β}

def Yields (r : Reader α) (P : α → Prop) : Prop := ∀ c a c', r c = .ok (a, c') → P a

theorem yields_pure {P : α → Prop} {a : α} (h : P a) : Yields (pure a) P := by
  intro c a' c' hr
  cases hr
  exact h

theorem yields_bind {P : β → Prop} (h : ∀ a, Yields (f a) P) : Yields (r >>= f) P := by
  intro c b c' hb
  obtain ⟨a, c₁, -, hf⟩ := bind_eq_ok_iff.mp hb
  exact h a c₁ b c' hf

theorem yields_map {P : β → Prop} {g : α → β} (h : Yields r fun a => P (g a)) :
    Yields (g <$> r) P := by
  intro c b c' hb
  have hb' : (r >>= fun a => pure (g a)) c = .ok (b, c') := hb
  obtain ⟨a, c₁, ha, hp⟩ := bind_eq_ok_iff.mp hb'
  cases hp
  exact h c a c' ha

theorem yields_commaList (item : Reader α) (n : Nat) : Yields (commaList item n) (· ≠ []) := by
  cases n with
  | zero => exact yields_bind fun x => yields_pure (by simp)
  | succ n =>
    apply yields_bind
    intro x
    apply yields_bind
    intro more
    cases more with
    | none => exact yields_pure (by simp)
    | some u => exact yields_bind fun xs => yields_pure (by simp)

end Reader

/-- A Prompt names a variable at least. Other commands are left free. -/
def Command.NamesVariable : Command → Prop
  | .prompt vars => vars ≠ []
  | _ => True

namespace Reader

theorem yields_forCommand (n : Nat) : Yields (forCommand n) Command.NamesVariable := by
  unfold forCommand
  iterate 8 refine yields_bind fun _ => ?_
  split
  · exact yields_bind fun _ => yields_bind fun _ => yields_pure trivial
  · exact yields_bind fun _ => yields_bind fun _ => yields_pure trivial

theorem yields_outputCommand (n : Nat) : Yields (outputCommand n) Command.NamesVariable := by
  unfold outputCommand
  iterate 7 refine yields_bind fun _ => ?_
  exact yields_pure trivial

theorem yields_inputCommand (n : Nat) : Yields (inputCommand n) Command.NamesVariable := by
  unfold inputCommand
  iterate 3 refine yields_bind fun _ => ?_
  split
  · exact yields_bind fun _ => yields_pure trivial
  · split
    · exact yields_pure trivial
    · intro c a c' h
      cases h

theorem yields_menuCommand (n : Nat) : Yields (menuCommand n) Command.NamesVariable := by
  unfold menuCommand
  iterate 4 refine yields_bind fun _ => ?_
  exact yields_pure trivial

theorem yields_dispCommand (n : Nat) : Yields (dispCommand n) Command.NamesVariable := by
  refine yields_bind fun more => ?_
  cases more with
  | true => exact yields_bind fun _ => yields_pure trivial
  | false => exact yields_pure trivial

theorem yields_pauseCommand (n : Nat) : Yields (pauseCommand n) Command.NamesVariable := by
  refine yields_bind fun more => ?_
  cases more with
  | true => exact yields_bind fun _ => yields_pure trivial
  | false => exact yields_pure trivial

theorem yields_keyword {n : Nat} {word : String} {command : Reader Command}
    (h : keyword? n word = some command) : Yields command Command.NamesVariable := by
  unfold keyword? at h
  split at h <;> cases h
  · exact yields_map fun _ _ _ _ => trivial
  · exact yields_pure trivial
  · exact yields_pure trivial
  · exact yields_pure trivial
  · exact yields_pure trivial
  · exact yields_map fun _ _ _ _ => trivial
  · exact yields_map fun _ _ _ _ => trivial
  · exact yields_forCommand n
  · exact yields_dispCommand n
  · exact yields_outputCommand n
  · exact yields_inputCommand n
  · exact yields_map (yields_commaList identifier n)
  · exact yields_pauseCommand n
  · exact yields_menuCommand n
  · exact yields_map fun _ _ _ _ => trivial
  · exact yields_map fun _ _ _ _ => trivial
  · exact yields_map fun _ _ _ _ => trivial

theorem yields_commandAt (n : Nat) (t : Token) : Yields (commandAt n t) Command.NamesVariable := by
  unfold commandAt
  split
  · split
    · next command h => exact fun c a c' hr => yields_keyword h c.advance a c' hr
    · exact yields_map fun _ _ _ _ => trivial
  · exact yields_map fun _ _ _ _ => trivial

theorem yields_statement (n : Nat) : Yields (statement n) (·.command.NamesVariable) := by
  intro c a c' h
  unfold statement at h
  split at h
  · cases h
  · next t _ _ =>
    have hmap : Yields (Statement.mk t.line <$> commandAt n t) (·.command.NamesVariable) :=
      yields_map (yields_commandAt n t)
    exact hmap c a c' h

theorem yields_statements (n : Nat) :
    Yields (statements n) fun sts => ∀ s ∈ sts, s.command.NamesVariable := by
  induction n with
  | zero => exact yields_pure (by simp)
  | succ n ih =>
    intro c sts c' h
    unfold statements at h
    split at h
    · cases h
      simp
    · obtain ⟨s, c₁, hs, hrest⟩ := bind_eq_ok_iff.mp h
      obtain ⟨more, c₂, hmore, hp⟩ := bind_eq_ok_iff.mp hrest
      cases hp
      have h₁ := yields_statement (n + 1) c s c₁ hs
      have h₂ := ih c₁ more c' hmore
      simp only [List.mem_cons, forall_eq_or_imp]
      exact ⟨h₁, h₂⟩

end Reader

/-- What the machine relies on: labels lead into the program, and a Prompt names a variable. -/
structure Program.Accepted (p : Program) : Prop where
  label : ∀ name i, p.labels.find? name = some i → i < p.length
  prompt : ∀ (i line : Nat) (vars : List String),
    p.statements[i]? = some ⟨line, .prompt vars⟩ → vars ≠ []

theorem readStatements_namesVariable {tokens : List Token} {sts : List Statement}
    (h : readStatements tokens = .ok sts) : ∀ s ∈ sts, s.command.NamesVariable := by
  unfold readStatements at h
  cases hr : Reader.statements tokens.length ⟨0, tokens⟩ with
  | error e =>
    rw [hr] at h
    cases h
  | ok q =>
    rw [hr] at h
    cases h
    exact Reader.yields_statements tokens.length ⟨0, tokens⟩ q.1 q.2 hr

theorem accepted_of_compile {source : String} {p : Program} (h : Program.compile source = .ok p) :
    p.Accepted := by
  unfold Program.compile at h
  cases hscan : scan source with
  | error e =>
    rw [hscan] at h
    cases h
  | ok tokens =>
    rw [hscan] at h
    change (readStatements tokens).bind Program.ofStatements = .ok p at h
    cases hread : readStatements tokens with
    | error e =>
      rw [hread] at h
      cases h
    | ok sts =>
      rw [hread] at h
      change Program.ofStatements sts = .ok p at h
      refine ⟨fun name i hi => ?_, fun i line vars hi => ?_⟩
      · obtain ⟨line, hs⟩ := statement_of_find? h hi
        exact (List.getElem?_eq_some_iff.mp hs).1
      · obtain ⟨-, rfl⟩ := (ofStatements_eq_ok_iff sts p).mp h
        exact readStatements_namesVariable hread _ (List.mem_of_getElem? hi)

end PocketBasic
