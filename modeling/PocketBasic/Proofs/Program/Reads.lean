import PocketBasic.Proofs.Program.Rendering

/-!
# Reading what has been written

`Reads l line r xs F r'` says that the reader `r`, which was last on line `l`, takes the lexemes `xs`
off line `line` and goes on as the reader `r'`, provided that what follows on the line satisfies `F`.
Such facts are put together the way readers are, so the tokens themselves appear in this module only.
-/

namespace PocketBasic

def Spells (line : Nat) (ts : List Token) (xs : List Lexeme) : Prop :=
  ts.map (fun t => (t.line, t.lexeme)) = xs.map (line, ·)

theorem spells_nil {line : Nat} {ts : List Token} (h : Spells line ts []) : ts = [] :=
  List.map_eq_nil_iff.mp h

theorem spells_cons {line : Nat} {ts : List Token} {x : Lexeme} {xs : List Lexeme}
    (h : Spells line ts (x :: xs)) :
    ∃ t us, ts = t :: us ∧ t.line = line ∧ t.lexeme = x ∧ Spells line us xs := by
  obtain ⟨t, us, rfl, ht, hus⟩ := List.map_eq_cons_iff.mp h
  cases ht
  exact ⟨t, us, rfl, rfl, rfl, hus⟩

theorem spells_append {line : Nat} {ts : List Token} {xs ys : List Lexeme}
    (h : Spells line ts (xs ++ ys)) :
    ∃ us vs, ts = us ++ vs ∧ Spells line us xs ∧ Spells line vs ys := by
  unfold Spells at h
  rw [List.map_append] at h
  obtain ⟨us, vs, rfl, hus, hvs⟩ := List.map_eq_append_iff.mp h
  exact ⟨us, vs, rfl, hus, hvs⟩

/-- The next lexeme on the line, if there is one. -/
def nextOn (line : Nat) (rest : List Token) : Option Lexeme :=
  (Cursor.sameLine? ⟨line, rest⟩).map (·.lexeme)

theorem nextOn_append {line : Nat} {ts rest : List Token} {xs : List Lexeme}
    (h : Spells line ts xs) : nextOn line (ts ++ rest) = xs.head?.or (nextOn line rest) := by
  cases xs with
  | nil =>
    rw [spells_nil h]
    rfl
  | cons x xs =>
    obtain ⟨t, us, rfl, hline, hx, -⟩ := spells_cons h
    simp [nextOn, Cursor.sameLine?, hline, hx]

def Anything : Option Lexeme → Prop := fun _ => True

/-- What follows, if anything, is not accepted by the function. -/
def Misses {α : Type} (f : Lexeme → Option α) : Option Lexeme → Prop := fun o => o.bind f = none

namespace Reader

variable {α β : Type} {l line : Nat} {r r₁ r₂ : Reader α} {xs ys : List Lexeme}
  {F G : Option Lexeme → Prop} {x : Lexeme} {a : α}

def Reads (l line : Nat) (r : Reader α) (xs : List Lexeme) (F : Option Lexeme → Prop)
    (r' : Reader α) : Prop :=
  ∀ ts rest, Spells line ts xs → F (nextOn line rest) → r ⟨l, ts ++ rest⟩ = r' ⟨line, rest⟩

theorem Reads.mono (h : Reads l line r xs F r₁) (hFG : ∀ o, G o → F o) :
    Reads l line r xs G r₁ :=
  fun ts rest hts hG => h ts rest hts (hFG _ hG)

theorem Reads.trans (h₁ : Reads l line r xs F r₁) (h₂ : Reads line line r₁ ys G r₂)
    (hF : ∀ o, G o → F (ys.head?.or o)) : Reads l line r (xs ++ ys) G r₂ := by
  intro ts rest hts hG
  obtain ⟨us, vs, rfl, hus, hvs⟩ := spells_append hts
  have hnext : F (nextOn line (vs ++ rest)) := by
    rw [nextOn_append hvs]
    exact hF _ hG
  rw [List.append_assoc, h₁ us (vs ++ rest) hus hnext]
  exact h₂ vs rest hvs hG

theorem Reads.followed (h₁ : Reads l line r xs Anything r₁) (h₂ : Reads line line r₁ ys G r₂) :
    Reads l line r (xs ++ ys) G r₂ :=
  h₁.trans h₂ fun _ _ => trivial

theorem Reads.andThen (h₁ : Reads l line r xs F r₁) (h₂ : Reads line line r₁ [] F r₂) :
    Reads l line r xs F r₂ := by
  have h := h₁.trans h₂ fun _ h => h
  rwa [List.append_nil] at h

theorem Reads.bind (h : Reads l line r xs F r₁) (f : α → Reader β) :
    Reads l line (r >>= f) xs F (r₁ >>= f) := by
  intro ts rest hts hF
  change (r ⟨l, ts ++ rest⟩ >>= fun q => f q.1 q.2) = (r₁ ⟨line, rest⟩ >>= fun q => f q.1 q.2)
  rw [h ts rest hts hF]

theorem Reads.result (h : Reads l line r xs F (pure a)) (f : α → Reader β) :
    Reads l line (r >>= f) xs F (f a) :=
  h.bind f

theorem Reads.mapped (h : Reads l line r xs F (pure a)) (f : α → β) :
    Reads l line (f <$> r) xs F (pure (f a)) :=
  h.bind fun a => pure (f a)

theorem reads_nothing (r : Reader α) : Reads line line r [] Anything r := by
  intro ts rest hts _
  rw [spells_nil hts, List.nil_append]

/-- A reader that looks at the first token only and leaves the rest to another reader. -/
theorem reads_head (h : ∀ t ts, t.line = line → t.lexeme = x → r ⟨l, t :: ts⟩ = r₁ ⟨line, ts⟩) :
    Reads l line r [x] Anything r₁ := by
  intro ts rest hts _
  obtain ⟨t, us, rfl, hline, hx, hus⟩ := spells_cons hts
  rw [spells_nil hus]
  exact h t rest hline hx

theorem Reads.of_head (h : Reads l line r₂ (x :: xs) F r₁)
    (heq : ∀ t ts, t.line = line → t.lexeme = x → r ⟨l, t :: ts⟩ = r₂ ⟨l, t :: ts⟩) :
    Reads l line r (x :: xs) F r₁ := by
  intro ts rest hts hF
  have hread := h ts rest hts hF
  obtain ⟨t, us, rfl, hline, hx, -⟩ := spells_cons hts
  rw [List.cons_append] at hread ⊢
  rw [heq t (us ++ rest) hline hx, hread]

theorem reads_expect {f : Lexeme → Option α} (expected : String) (h : f x = some a) :
    Reads l line (expect f expected) [x] Anything (pure a) := by
  apply reads_head
  rintro t ts rfl rfl
  simp only [expect, h]
  rfl

theorem reads_accept {f : Lexeme → Option α} (h : f x = some a) :
    Reads l line (accept? f) [x] Anything (pure (some a)) := by
  apply reads_head
  rintro t ts rfl rfl
  simp only [accept?, h]
  rfl

theorem reads_accept_none {f : Lexeme → Option α} :
    Reads line line (accept? f) [] (fun o => o.isSome = true ∧ Misses f o) (pure none) := by
  intro ts rest hts hF
  rw [spells_nil hts, List.nil_append]
  obtain ⟨hsome, hmiss⟩ := hF
  cases rest with
  | nil => cases hsome
  | cons t us =>
    have hline : t.line = line := by
      by_cases h : t.line = line
      · exact h
      · simp [nextOn, Cursor.sameLine?, h] at hsome
    have hf : f t.lexeme = none := by
      simpa [Misses, nextOn, Cursor.sameLine?, hline] using hmiss
    simp only [accept?, hf]
    rfl

theorem reads_acceptSameLine {f : Lexeme → Option α} (h : f x = some a) :
    Reads line line (acceptSameLine? f) [x] Anything (pure (some a)) := by
  apply reads_head
  rintro t ts rfl rfl
  simp only [acceptSameLine?, Cursor.sameLine?, if_true, Option.bind_some, h]
  rfl

theorem reads_acceptSameLine_none {f : Lexeme → Option α} :
    Reads line line (acceptSameLine? f) [] (Misses f) (pure none) := by
  intro ts rest hts hF
  rw [spells_nil hts, List.nil_append]
  have hmiss : ((Cursor.sameLine? ⟨line, rest⟩).bind fun t => f t.lexeme) = none := by
    have h : ((Cursor.sameLine? ⟨line, rest⟩).map (·.lexeme)).bind f = none := hF
    rwa [Option.bind_map] at h
  simp only [acceptSameLine?]
  rw [hmiss]
  rfl

theorem reads_currentLine : Reads line line currentLine [] Anything (pure line) := by
  intro ts rest hts _
  rw [spells_nil hts]
  rfl

theorem reads_moreOnLine {b : Bool} :
    Reads line line moreOnLine [] (fun o => o.isSome = b) (pure b) := by
  intro ts rest hts hF
  rw [spells_nil hts, List.nil_append]
  have hsome : (Cursor.sameLine? ⟨line, rest⟩).isSome = b := by
    have h : ((Cursor.sameLine? ⟨line, rest⟩).map (·.lexeme)).isSome = b := hF
    rwa [Option.isSome_map] at h
  simp only [moreOnLine, hsome]
  rfl

end Reader

end PocketBasic
