import Mathlib.Data.List.Chain
import PocketBasic.Proofs.Program.Reading

/-!
# The tokens of an expression

`Reader.Ensures` is a rule of a reader: from a cursor with the first property, every result and the
cursor behind it have the second. `Covers` follows the tokens that are read from a start on: which lines
they cover, and why each of them may stand behind the one before it. It is on the same line, or the one
before asks for more, or it is a closing parenthesis.
-/

namespace PocketBasic

namespace Reader

section Rules

variable {α β : Type} {P : Cursor → Prop} {Q : α → Cursor → Prop} {R : β → Cursor → Prop}
  {r : Reader α} {f : α → Reader β} {a : α}

/-- Every result that is read from a cursor with `P`, and the cursor behind it, have `Q`. -/
def Ensures (P : Cursor → Prop) (r : Reader α) (Q : α → Cursor → Prop) : Prop :=
  ∀ c a c', P c → r c = .ok (a, c') → Q a c'

theorem ensures_pure (h : ∀ c, P c → Q a c) : Ensures P (pure a) Q := by
  intro c a' c' hc hr
  cases hr
  exact h c hc

theorem ensures_bind (h : Ensures P r Q) (hf : ∀ a, Ensures (Q a) (f a) R) :
    Ensures P (r >>= f) R := by
  intro c b c' hc hb
  obtain ⟨a, c₁, ha, hb'⟩ := bind_eq_ok_iff.mp hb
  exact hf a c₁ b c' (h c a c₁ hc ha) hb'

theorem ensures_map {g : α → β} (h : Ensures P r fun a => R (g a)) : Ensures P (g <$> r) R := by
  have hbind : Ensures P (r >>= fun a => pure (g a)) R :=
    ensures_bind h fun a => ensures_pure fun _ hc => hc
  exact hbind

theorem ensures_throw (e : Fault) : Ensures P (throw e) Q := by
  intro c a c' _ hr
  cases hr

theorem ensures_fail (expected : String) : Ensures P (fail expected) Q := by
  intro c a c' _ hr
  cases hr

theorem Ensures.imp {Q' : α → Cursor → Prop} (h : Ensures P r Q) (hq : ∀ a c, Q a c → Q' a c) :
    Ensures P r Q' :=
  fun c a c' hc hr => hq a c' (h c a c' hc hr)

theorem Ensures.of_imp {P' : Cursor → Prop} (h : Ensures P r Q) (hp : ∀ c, P' c → P c) :
    Ensures P' r Q :=
  fun c a c' hc hr => h c a c' (hp c hc) hr

theorem ensures_expect {f : Lexeme → Option α} {expected : String}
    (h : ∀ c t ts a, P c → c.rest = t :: ts → f t.lexeme = some a → Q a ⟨t.line, ts⟩) :
    Ensures P (expect f expected) Q := by
  intro c a c' hc hr
  unfold expect at hr
  split at hr
  · next t ts hrest =>
    split at hr
    · next a' hf =>
      cases hr
      exact h c t ts a hc hrest hf
    · cases hr
  · cases hr

theorem ensures_accept? {f : Lexeme → Option α} {Q : Option α → Cursor → Prop}
    (hsome : ∀ c t ts a, P c → c.rest = t :: ts → f t.lexeme = some a → Q (some a) ⟨t.line, ts⟩)
    (hnone : ∀ c, P c → Q none c) : Ensures P (accept? f) Q := by
  intro c a c' hc hr
  unfold accept? at hr
  split at hr
  · next t ts hrest =>
    split at hr
    · next a' hf =>
      cases hr
      exact hsome c t ts a' hc hrest hf
    · cases hr
      exact hnone c hc
  · cases hr
    exact hnone c hc

theorem ensures_acceptSameLine? {f : Lexeme → Option α} {Q : Option α → Cursor → Prop}
    (hsome : ∀ c t ts a, P c → c.rest = t :: ts → t.line = c.line → f t.lexeme = some a →
      Q (some a) ⟨t.line, ts⟩)
    (hnone : ∀ c, P c → Q none c) : Ensures P (acceptSameLine? f) Q := by
  intro c a c' hc hr
  obtain ⟨line, rest⟩ := c
  unfold acceptSameLine? at hr
  split at hr
  · next a' hf =>
    cases hr
    obtain ⟨t, ht, hlex⟩ := Option.bind_eq_some_iff.mp hf
    cases rest with
    | nil => cases ht
    | cons u us =>
      simp only [Cursor.sameLine?, Option.ite_none_right_eq_some] at ht
      obtain ⟨hline, hu⟩ := ht
      cases hu
      exact hsome ⟨line, t :: us⟩ t us a' hc rfl hline hlex
  · cases hr
    exact hnone _ hc

theorem ensures_currentLine {Q : Nat → Cursor → Prop} (h : ∀ c, P c → Q c.line c) :
    Ensures P currentLine Q := by
  intro c line c' hc hr
  cases hr
  exact h c hc

theorem ensures_moreOnLine {Q : Bool → Cursor → Prop} (h : ∀ c b, P c → Q b c) :
    Ensures P moreOnLine Q := by
  intro c b c' hc hr
  cases hr
  exact h c _ hc

end Rules

end Reader

/-- An expression does not end with the lexeme. The words "and" and "or" are operators where they stand
between operands. -/
def Lexeme.goesOn : Lexeme → Bool
  | .operator _ | .comparison _ | .assignment | .openParen | .comma => true
  | .identifier name => name.toLower = "and" || name.toLower = "or"
  | .number .. | .string _ | .closeParen => false

theorem Lexeme.goesOn_of_sumOp? {x : Lexeme} {op : BinaryOp} (h : x.sumOp? = some op) :
    x.goesOn = true := by
  cases x with
  | operator sign => rfl
  | identifier name =>
    simp only [Lexeme.sumOp?] at h
    simp only [Lexeme.goesOn, Bool.or_eq_true, decide_eq_true_eq]
    by_cases hand : name.toLower = "and"
    · exact .inl hand
    · by_cases hor : name.toLower = "or"
      · exact .inr hor
      · simp [hand, hor] at h
  | _ => cases h

theorem Lexeme.goesOn_of_productOp? {x : Lexeme} {op : BinaryOp} (h : x.productOp? = some op) :
    x.goesOn = true := by
  cases x with
  | operator sign => rfl
  | _ => cases h

theorem Lexeme.goesOn_of_comparison? {x : Lexeme} {sign : ComparisonSign}
    (h : x.comparison? = some sign) : x.goesOn = true := by
  cases x with
  | comparison sign => rfl
  | _ => cases h

theorem Lexeme.goesOn_of_equals? {x : Lexeme} {u : Unit} (h : x.equals? = some u) :
    x.goesOn = true := by
  cases x with
  | comparison sign => rfl
  | _ => cases h

theorem Lexeme.goesOn_of_arrow? {x : Lexeme} {u : Unit} (h : x.arrow? = some u) :
    x.goesOn = true := by
  cases x with
  | assignment => rfl
  | _ => cases h

theorem Lexeme.goesOn_of_comma? {x : Lexeme} {u : Unit} (h : x.comma? = some u) :
    x.goesOn = true := by
  cases x with
  | comma => rfl
  | _ => cases h

theorem Lexeme.goesOn_of_openParen? {x : Lexeme} {u : Unit} (h : x.openParen? = some u) :
    x.goesOn = true := by
  cases x with
  | openParen => rfl
  | _ => cases h

theorem Lexeme.eq_of_closeParen? {x : Lexeme} {u : Unit} (h : x.closeParen? = some u) :
    x = .closeParen := by
  cases x with
  | closeParen => rfl
  | _ => cases h

/-- One token may stand behind the other inside an expression. -/
def Token.Joins (t u : Token) : Prop :=
  t.line = u.line ∨ t.lexeme.goesOn = true ∨ u.lexeme = .closeParen

/-- The tokens `ts` lie between the cursors and cover the lines. -/
structure Stretch (start c : Cursor) (lines : List Nat) (ts : List Token) : Prop where
  rest : start.rest = ts ++ c.rest
  joined : ts.IsChain Token.Joins
  last : ∀ t ∈ ts.getLast?, t.line = c.line
  covers : ∀ l ∈ lines, ∃ t ∈ ts, t.line = l

def Covers (start : Cursor) (lines : List Nat) (c : Cursor) : Prop :=
  ∃ ts, Stretch start c lines ts

/-- What lies between the cursors covers the lines, and any token may stand behind it. -/
def Expects (start : Cursor) (lines : List Nat) (c : Cursor) : Prop :=
  ∃ ts, Stretch start c lines ts ∧ ∀ t ∈ ts.getLast?, t.lexeme.goesOn = true

variable {start c : Cursor} {lines lines' : List Nat} {t : Token} {us : List Token}

theorem Stretch.snoc {ts : List Token} (h : Stretch start c lines ts) (hrest : c.rest = t :: us)
    (hjoins : ∀ u ∈ ts.getLast?, u.Joins t) :
    Stretch start ⟨t.line, us⟩ (t.line :: lines) (ts ++ [t]) where
  rest := by
    rw [h.rest, hrest, List.append_assoc]
    rfl
  joined := by
    refine List.isChain_append.mpr ⟨h.joined, List.isChain_singleton t, ?_⟩
    intro u hu v hv
    cases hv
    exact hjoins u hu
  last := by
    intro u hu
    rw [List.getLast?_concat] at hu
    cases hu
    rfl
  covers := by
    intro l hl
    rcases List.mem_cons.mp hl with rfl | hl
    · exact ⟨t, by simp, rfl⟩
    · obtain ⟨u, hu, hline⟩ := h.covers l hl
      exact ⟨u, List.mem_append_left [t] hu, hline⟩

theorem Stretch.mono {ts : List Token} (h : Stretch start c lines ts)
    (hsub : ∀ l ∈ lines', l ∈ lines) : Stretch start c lines' ts :=
  { h with covers := fun l hl => h.covers l (hsub l hl) }

theorem Covers.mono (h : Covers start lines c) (hsub : ∀ l ∈ lines', l ∈ lines) :
    Covers start lines' c := by
  obtain ⟨ts, hts⟩ := h
  exact ⟨ts, hts.mono hsub⟩

theorem Expects.mono (h : Expects start lines c) (hsub : ∀ l ∈ lines', l ∈ lines) :
    Expects start lines' c := by
  obtain ⟨ts, hts, hlast⟩ := h
  exact ⟨ts, hts.mono hsub, hlast⟩

theorem expects_start (c : Cursor) : Expects c [] c :=
  ⟨[], ⟨rfl, List.isChain_nil, by simp, by simp⟩, by simp⟩

theorem Expects.token (h : Expects start lines c) (hrest : c.rest = t :: us) :
    Covers start (t.line :: lines) ⟨t.line, us⟩ := by
  obtain ⟨ts, hts, hlast⟩ := h
  exact ⟨_, hts.snoc hrest fun u hu => .inr (.inl (hlast u hu))⟩

theorem Expects.more (h : Expects start lines c) (hrest : c.rest = t :: us)
    (hgoes : t.lexeme.goesOn = true) : Expects start (t.line :: lines) ⟨t.line, us⟩ := by
  obtain ⟨ts, hts, hlast⟩ := h
  refine ⟨_, hts.snoc hrest fun u hu => .inr (.inl (hlast u hu)), fun u hu => ?_⟩
  rw [List.getLast?_concat] at hu
  cases hu
  exact hgoes

/-- Behind a whole operand only a token of the same line goes on. -/
theorem Covers.more (h : Covers start lines c) (hrest : c.rest = t :: us) (hline : t.line = c.line)
    (hgoes : t.lexeme.goesOn = true) : Expects start (t.line :: lines) ⟨t.line, us⟩ := by
  obtain ⟨ts, hts⟩ := h
  refine ⟨_, hts.snoc hrest fun u hu => .inl ((hts.last u hu).trans hline.symm), fun u hu => ?_⟩
  rw [List.getLast?_concat] at hu
  cases hu
  exact hgoes

theorem Covers.close (h : Covers start lines c) (hrest : c.rest = t :: us)
    (hclose : t.lexeme = .closeParen) : Covers start (t.line :: lines) ⟨t.line, us⟩ := by
  obtain ⟨ts, hts⟩ := h
  exact ⟨_, hts.snoc hrest fun u hu => .inr (.inr hclose)⟩

end PocketBasic
