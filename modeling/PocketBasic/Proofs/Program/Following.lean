import PocketBasic.Program.Syntax
import PocketBasic.Proofs.Program.Lines

/-!
# Readers before more tokens

Take tokens that stand on other lines than those behind them. A reader that succeeds on them reads the
same from the longer list and stops at the same place, and it reads the same, shifted, if all of them are
moved down. `Reader.Follows` says this of a pair of readers, which may differ in their bounds for
the number of tokens left. It is put together along the readers. With nothing behind, the errors agree too.
-/

namespace PocketBasic

namespace Cursor

variable {k : Nat} {us : List Token} {c : Cursor}

/-- The cursor over the same tokens, moved down, with others behind them. -/
def extend (k : Nat) (us : List Token) (c : Cursor) : Cursor :=
  ⟨c.line + k, c.rest.map (Token.shift k) ++ us⟩

/-- The first of the tokens behind stands on none of the cursor's lines. -/
def Apart (k : Nat) (us : List Token) (c : Cursor) : Prop :=
  ∀ u ∈ us.head?, c.line + k ≠ u.line ∧ ∀ t ∈ c.rest, t.line + k ≠ u.line

theorem apart_nil (k : Nat) (c : Cursor) : c.Apart k [] := by
  intro u hu
  cases hu

theorem Apart.tail {line : Nat} {t : Token} {ts : List Token} (h : Apart k us ⟨line, t :: ts⟩) :
    Apart k us ⟨t.line, ts⟩ := by
  intro u hu
  obtain ⟨-, hrest⟩ := h u hu
  exact ⟨hrest t List.mem_cons_self, fun t' ht' => hrest t' (List.mem_cons_of_mem t ht')⟩

theorem unexpected_extend (k : Nat) (c : Cursor) (expected : String) :
    (c.extend k []).unexpected expected = (c.unexpected expected).shift k := by
  obtain ⟨line, rest⟩ := c
  cases rest <;> rfl

theorem sameLine?_extend (h : c.Apart k us) :
    (c.extend k us).sameLine? = c.sameLine?.map (Token.shift k) := by
  obtain ⟨line, rest⟩ := c
  cases rest with
  | nil =>
    cases us with
    | nil => rfl
    | cons u us =>
      have hne : line + k ≠ u.line := (h u rfl).1
      exact if_neg hne.symm
  | cons t ts =>
    by_cases hline : t.line = line
    · simp [sameLine?, extend, Token.shift, hline]
    · simp [sameLine?, extend, Token.shift, hline]

theorem sameLine?_nil (line : Nat) : sameLine? ⟨line, []⟩ = none := rfl

end Cursor

section Binds

variable {σ ε α β : Type} {r : StateT σ (Except ε) α} {f : α → StateT σ (Except ε) β} {c c₁ : σ}

theorem bind_of_ok {a : α} (h : r c = .ok (a, c₁)) : (r >>= f) c = f a c₁ := by
  change (r c >>= fun q => f q.1 q.2) = _
  rw [h]
  rfl

theorem bind_of_error {e : ε} (h : r c = .error e) : (r >>= f) c = .error e := by
  change (r c >>= fun q => f q.1 q.2) = _
  rw [h]
  rfl

end Binds

namespace Reader

section Rules

variable {α β γ δ : Type} {k b b' d : Nat} {us : List Token} {φ : α → β} {ψ : γ → δ}
  {r : Reader α} {r' : Reader β} {f : α → Reader γ} {f' : β → Reader δ}

/-- What `r` reads from at most `b` tokens, `r'` reads from the tokens moved down, whatever stands behind
them. At least `d` tokens are read. -/
structure Follows (k : Nat) (us : List Token) (b d : Nat) (φ : α → β) (r : Reader α)
    (r' : Reader β) : Prop where
  ok : ∀ (c : Cursor) (a : α) (c₁ : Cursor), c.Apart k us → c.rest.length ≤ b → r c = .ok (a, c₁) →
    r' (c.extend k us) = .ok (φ a, c₁.extend k us) ∧ c₁.Apart k us ∧
      c₁.rest.length + d ≤ c.rest.length
  error : us = [] → ∀ (c : Cursor) (e : Fault), c.rest.length ≤ b → r c = .error e →
    r' (c.extend k us) = .error (e.shift k)

theorem Follows.mono (h : Follows k us b d φ r r') (hb : b' ≤ b) : Follows k us b' d φ r r' where
  ok c a c₁ hapart hle := h.ok c a c₁ hapart (Nat.le_trans hle hb)
  error hus c e hle := h.error hus c e (Nat.le_trans hle hb)

theorem Follows.weaken (h : Follows k us b d φ r r') : Follows k us b 0 φ r r' where
  ok c a c₁ hapart hle hr := by
    obtain ⟨hr', hapart', hlen⟩ := h.ok c a c₁ hapart hle hr
    exact ⟨hr', hapart', by omega⟩
  error := h.error

theorem follows_pure (φ : α → β) (a : α) : Follows k us b 0 φ (pure a) (pure (φ a)) where
  ok c a' c₁ hapart _ hr := by
    cases hr
    exact ⟨rfl, hapart, Nat.le_refl _⟩
  error _ c e _ hr := by cases hr

theorem follows_throw (φ : α → β) (e : Fault) :
    Follows k us b 0 φ (throw e) (throw (e.shift k)) where
  ok c a c₁ _ _ hr := by cases hr
  error _ c e' _ hr := by
    cases hr
    rfl

theorem follows_bind (h : Follows k us b d φ r r')
    (hf : ∀ a, Follows k us (b - d) 0 ψ (f a) (f' (φ a))) :
    Follows k us b d ψ (r >>= f) (r' >>= f') where
  ok c x c₂ hapart hle hx := by
    cases hr : r c with
    | error e =>
      rw [bind_of_error hr] at hx
      cases hx
    | ok q =>
      obtain ⟨a, c₁⟩ := q
      rw [bind_of_ok hr] at hx
      obtain ⟨hr', hapart₁, hlen₁⟩ := h.ok c a c₁ hapart hle hr
      obtain ⟨hx', hapart₂, hlen₂⟩ := (hf a).ok c₁ x c₂ hapart₁ (by omega) hx
      exact ⟨(bind_of_ok hr').trans hx', hapart₂, by omega⟩
  error hus c e hle he := by
    subst hus
    cases hr : r c with
    | error e' =>
      rw [bind_of_error hr] at he
      cases he
      exact bind_of_error (h.error rfl c e hle hr)
    | ok q =>
      obtain ⟨a, c₁⟩ := q
      rw [bind_of_ok hr] at he
      obtain ⟨hr', -, hlen₁⟩ := h.ok c a c₁ (Cursor.apart_nil k c) hle hr
      exact (bind_of_ok hr').trans ((hf a).error rfl c₁ e (by omega) he)

theorem follows_map {g : α → γ} {g' : β → δ} (h : Follows k us b d φ r r')
    (hg : ∀ a, ψ (g a) = g' (φ a)) : Follows k us b d ψ (g <$> r) (g' <$> r') := by
  change Follows k us b d ψ (r >>= fun a => pure (g a)) (r' >>= fun a => pure (g' a))
  refine follows_bind h fun a => ?_
  rw [← hg a]
  exact follows_pure ψ (g a)

theorem follows_expect (f : Lexeme → Option α) (expected : String) :
    Follows k us b 1 id (expect f expected) (expect f expected) where
  ok c a c₁ hapart _ hr := by
    obtain ⟨line, rest⟩ := c
    cases rest with
    | nil => cases hr
    | cons t ts =>
      cases hf : f t.lexeme with
      | none =>
        simp only [expect, hf] at hr
        cases hr
      | some x =>
        simp only [expect, hf] at hr
        cases hr
        refine ⟨?_, hapart.tail, Nat.le_refl _⟩
        simp only [expect, Cursor.extend, List.map_cons, List.cons_append, Token.shift, hf, id]
  error hus c e _ hr := by
    subst hus
    have hunexpected := Cursor.unexpected_extend k c expected
    obtain ⟨line, rest⟩ := c
    cases rest with
    | nil =>
      cases hr
      rfl
    | cons t ts =>
      cases hf : f t.lexeme with
      | none =>
        simp only [expect, hf] at hr
        cases hr
        rw [← hunexpected]
        simp only [expect, Cursor.extend, List.map_cons, List.cons_append, Token.shift, hf]
      | some x =>
        simp only [expect, hf] at hr
        cases hr

theorem acceptSameLine?_bind (p : Lexeme → Option α) (f : Option α → Reader γ) (c : Cursor) :
    (acceptSameLine? p >>= f) c = match c.sameLine?.bind fun t => p t.lexeme with
      | some a => f (some a) c.advance
      | none => f none c := by
  change (acceptSameLine? p c >>= fun q => f q.1 q.2) = _
  unfold acceptSameLine?
  cases c.sameLine?.bind fun t => p t.lexeme <;> rfl

theorem acceptSameLine?_extend (p : Lexeme → Option α) (f : Option α → Reader γ) {c : Cursor}
    (hapart : c.Apart k us) :
    (acceptSameLine? p >>= f) (c.extend k us) = match c.sameLine?.bind fun t => p t.lexeme with
      | some a => f (some a) (c.advance.extend k us)
      | none => f none (c.extend k us) := by
  rw [acceptSameLine?_bind, Cursor.sameLine?_extend hapart]
  obtain ⟨line, rest⟩ := c
  cases rest with
  | nil => rfl
  | cons t ts =>
    cases Cursor.sameLine? ⟨line, t :: ts⟩ <;> rfl

theorem advance_of_sameLine? {p : Lexeme → Option α} {c : Cursor} {a : α}
    (h : (c.sameLine?.bind fun t => p t.lexeme) = some a) (hapart : c.Apart k us) :
    c.advance.Apart k us ∧ c.advance.rest.length + 1 = c.rest.length := by
  obtain ⟨line, rest⟩ := c
  cases rest with
  | nil => cases h
  | cons t ts => exact ⟨hapart.tail, rfl⟩

theorem follows_acceptSameLine {p : Lexeme → Option α} {f : Option α → Reader γ}
    {f' : Option α → Reader δ} (hnone : Follows k us b 0 ψ (f none) (f' none))
    (hsome : ∀ a, Follows k us (b - 1) 0 ψ (f (some a)) (f' (some a))) :
    Follows k us b 0 ψ (acceptSameLine? p >>= f) (acceptSameLine? p >>= f') where
  ok c x c₂ hapart hle hx := by
    rw [acceptSameLine?_bind] at hx
    rw [acceptSameLine?_extend p f' hapart]
    cases hnext : c.sameLine?.bind fun t => p t.lexeme with
    | none =>
      rw [hnext] at hx
      exact hnone.ok c x c₂ hapart hle hx
    | some a =>
      rw [hnext] at hx
      obtain ⟨hapart₁, hlen⟩ := advance_of_sameLine? hnext hapart
      obtain ⟨hx', hapart₂, hlen₂⟩ := (hsome a).ok c.advance x c₂ hapart₁ (by omega) hx
      exact ⟨hx', hapart₂, by omega⟩
  error hus c e hle he := by
    subst hus
    have hapart := Cursor.apart_nil k c
    rw [acceptSameLine?_bind] at he
    rw [acceptSameLine?_extend p f' hapart]
    cases hnext : c.sameLine?.bind fun t => p t.lexeme with
    | none =>
      rw [hnext] at he
      exact hnone.error rfl c e hle he
    | some a =>
      rw [hnext] at he
      obtain ⟨-, hlen⟩ := advance_of_sameLine? hnext hapart
      exact (hsome a).error rfl c.advance e (by omega) he

theorem accept?_bind_cons (p : Lexeme → Option α) (f : Option α → Reader γ) (line : Nat) (t : Token)
    (ts : List Token) : (accept? p >>= f) ⟨line, t :: ts⟩ = match p t.lexeme with
      | some a => f (some a) ⟨t.line, ts⟩
      | none => f none ⟨line, t :: ts⟩ := by
  change (accept? p ⟨line, t :: ts⟩ >>= fun q => f q.1 q.2) = _
  unfold accept?
  cases hp : p t.lexeme <;> simp only [hp] <;> rfl

/-- A token that may follow on any line. Without it the reader needs some other token, so it fails at the
end of the tokens. -/
theorem follows_accept {p : Lexeme → Option α} {f : Option α → Reader γ}
    {f' : Option α → Reader δ} (hnone : Follows k us b 1 ψ (f none) (f' none))
    (hsome : ∀ a, Follows k us b 0 ψ (f (some a)) (f' (some a))) :
    Follows k us b 0 ψ (accept? p >>= f) (accept? p >>= f') where
  ok c x c₂ hapart hle hx := by
    obtain ⟨line, rest⟩ := c
    cases rest with
    | nil =>
      -- A token from behind might be accepted here, but the reader has failed on its own tokens.
      have hlen := (hnone.ok ⟨line, []⟩ x c₂ hapart hle hx).2.2
      cases hlen
    | cons t ts =>
      have hread := accept?_bind_cons p f' (line + k) (t.shift k) (ts.map (Token.shift k) ++ us)
      rw [accept?_bind_cons] at hx
      cases hp : p t.lexeme with
      | none =>
        simp only [Token.shift, hp] at hx hread
        obtain ⟨hx', hapart₂, hlen⟩ := hnone.ok ⟨line, t :: ts⟩ x c₂ hapart hle hx
        exact ⟨hread.trans hx', hapart₂, Nat.le_of_succ_le hlen⟩
      | some a =>
        simp only [Token.shift, hp] at hx hread
        obtain ⟨hx', hapart₂, hlen⟩ := (hsome a).ok ⟨t.line, ts⟩ x c₂ hapart.tail
          (Nat.le_of_succ_le hle) hx
        exact ⟨hread.trans hx', hapart₂, Nat.le_succ_of_le hlen⟩
  error hus c e hle he := by
    subst hus
    obtain ⟨line, rest⟩ := c
    cases rest with
    | nil => exact hnone.error rfl ⟨line, []⟩ e hle he
    | cons t ts =>
      have hread := accept?_bind_cons p f' (line + k) (t.shift k) (ts.map (Token.shift k) ++ [])
      rw [accept?_bind_cons] at he
      cases hp : p t.lexeme with
      | none =>
        simp only [Token.shift, hp] at he hread
        exact hread.trans (hnone.error rfl ⟨line, t :: ts⟩ e hle he)
      | some a =>
        simp only [Token.shift, hp] at he hread
        exact hread.trans ((hsome a).error rfl ⟨t.line, ts⟩ e (Nat.le_of_succ_le hle) he)

theorem follows_currentLine : Follows k us b 0 (· + k) currentLine currentLine where
  ok c a c₁ hapart _ hr := by
    cases hr
    exact ⟨rfl, hapart, Nat.le_refl _⟩
  error _ c e _ hr := by cases hr

theorem follows_moreOnLine : Follows k us b 0 id moreOnLine moreOnLine where
  ok c a c₁ hapart _ hr := by
    cases hr
    refine ⟨?_, hapart, Nat.le_refl _⟩
    simp only [moreOnLine, Cursor.sameLine?_extend hapart, Option.isSome_map, id]
  error _ c e _ hr := by cases hr

/-- The reader returns `a` and stays where it is if no token is left on the line. -/
def Rests (r : Reader α) (a : α) : Prop := ∀ c : Cursor, c.sameLine? = none → r c = .ok (a, c)

theorem rests_pure (a : α) : Rests (pure a) a := fun _ _ => rfl

theorem rests_acceptSameLine {p : Lexeme → Option α} {f : Option α → Reader γ} {x : γ}
    (h : Rests (f none) x) : Rests (acceptSameLine? p >>= f) x := by
  intro c hc
  rw [acceptSameLine?_bind, hc]
  exact h c hc

theorem follows_of_rests {a : α} (h : Rests r a) (h' : Rests r' (φ a)) :
    Follows k us 0 0 φ r r' where
  ok c a' c₁ hapart hle hr := by
    obtain ⟨line, rest⟩ := c
    obtain rfl : rest = [] := List.eq_nil_of_length_eq_zero (Nat.le_zero.mp hle)
    rw [h _ (Cursor.sameLine?_nil line)] at hr
    cases hr
    exact ⟨h' _ (Cursor.sameLine?_extend hapart), hapart, Nat.le_refl _⟩
  error _ c e hle hr := by
    obtain ⟨line, rest⟩ := c
    obtain rfl : rest = [] := List.eq_nil_of_length_eq_zero (Nat.le_zero.mp hle)
    rw [h _ (Cursor.sameLine?_nil line)] at hr
    cases hr

end Rules

end Reader

end PocketBasic
