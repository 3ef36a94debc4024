import PocketBasic.Proofs.Program.Layout

/-!
# Lexemes written with spaces between them

`Lexeme.Writable` says which lexemes a text can hold: words that match the number pattern and are in range,
other words, strings without a quote, and signs. They can be written one after the other with a space between
each two, and the text is then read as just these lexemes.
-/

namespace PocketBasic

def IsWord (s : List Char) : Prop := s ≠ [] ∧ ∀ c ∈ s, isWordChar c = true

/-- Digits, or digits on both sides of a point, and perhaps a sign before them. -/
def NumberPattern (s : List Char) : Prop := NumberWord s ∨ ∃ t, s = '-' :: t ∧ NumberWord t

inductive Lexeme.Writable : Lexeme → Prop
  | number {s : List Char} {value : Float} (hword : IsWord s) (hs : NumberPattern s)
      (hvalue : Number.read? (String.ofList s) = some value) : Writable (.number (String.ofList s) value)
  | identifier {s : List Char} (hword : IsWord s) (hs : ¬ NumberPattern s) :
      Writable (.identifier (String.ofList s))
  | string {body : List Char} (hbody : '"' ∉ body) : Writable (.string (String.ofList body))
  | sign {x : Lexeme} (hx : x.IsSign) : Writable x

def Lexeme.spelling : Lexeme → List Char
  | .string body => '"' :: body.toList ++ ['"']
  | x => x.text.toList

def spaced (xs : List Lexeme) : List Char := [' '].intercalate (xs.map Lexeme.spelling)

theorem spaced_singleton (x : Lexeme) : spaced [x] = x.spelling :=
  List.intercalate_singleton

theorem spaced_cons_cons (x y : Lexeme) (xs : List Lexeme) :
    spaced (x :: y :: xs) = x.spelling ++ ' ' :: spaced (y :: xs) := by
  unfold spaced
  rw [List.map_cons, List.map_cons, List.intercalate_cons_cons, ← List.map_cons, List.append_assoc]
  rfl

theorem IsWord.numberPattern_iff {s : List Char} (h : IsWord s) : NumberPattern s ↔ NumberWord s := by
  refine ⟨fun hs => ?_, .inl⟩
  rcases hs with hs | ⟨t, rfl, -⟩
  · exact hs
  · exact absurd (h.2 '-' List.mem_cons_self) (by decide)

namespace Lexeme

variable {x : Lexeme} {s more rest before text : List Char} {ts : List Token}

theorem IsSign.spelling_eq (h : x.IsSign) : x.spelling = x.text.toList := by
  cases h <;> rfl

theorem Writable.spelled (h : x.Writable) (hmore : ∀ c, more.head? = some c → c = ' ') :
    Spelled x.spelling x more := by
  have hend : EndsWord more := fun c hc => by
    rw [hmore c hc]
    decide
  cases h with
  | @number s value hword hs hvalue =>
    have hspelling : (Lexeme.number (String.ofList s) value).spelling = s := String.toList_ofList
    rw [hspelling]
    exact .number (hword.numberPattern_iff.mp hs) hvalue hend
  | @identifier s hword hs =>
    have hspelling : (Lexeme.identifier (String.ofList s)).spelling = s := String.toList_ofList
    rw [hspelling]
    exact .identifier hword.1 hword.2 (fun hnumber => hs (.inl hnumber)) hend
  | @string body hbody =>
    have hspelling : (Lexeme.string (String.ofList body)).spelling = '"' :: body ++ ['"'] := by
      rw [spelling, String.toList_ofList]
    rw [hspelling]
    exact .closed hbody
  | sign hx =>
    rw [hx.spelling_eq]
    refine .sign hx fun c hc hhead => ?_
    rw [hmore c hhead] at hc
    cases hx with
    | operator sign => cases sign <;> cases hc
    | comparison sign => cases sign <;> cases hc
    | _ => cases hc

theorem writable_of_spelled (h : Spelled s x more) : x.Writable := by
  cases h with
  | number hs hvalue _ => exact .number ⟨hs.ne_nil, hs.isWordChar⟩ (.inl hs) hvalue
  | identifier hne hword hnot _ =>
    have hisWord : IsWord s := ⟨hne, hword⟩
    exact .identifier hisWord fun hs => hnot (hisWord.numberPattern_iff.mp hs)
  | closed hbody => exact .string hbody
  | unclosed hbody => exact .string hbody
  | sign hx _ => exact .sign hx

theorem writable_of_layout (h : Layout rest before text ts) : ∀ t ∈ ts, t.lexeme.Writable := by
  induction h with
  | blank _ => simp
  | token _ hspelled _ ih => exact List.forall_mem_cons.mpr ⟨writable_of_spelled hspelled, ih⟩

end Lexeme

/-- The lexemes stand in the text one after the other, each up to the space behind it. -/
theorem layout_spaced {xs : List Lexeme} (h : ∀ x ∈ xs, x.Writable) (before : List Char) :
    ∃ ts, Layout [] before (spaced xs) ts ∧ ts.map (·.lexeme) = xs := by
  induction xs generalizing before with
  | nil => exact ⟨[], .blank (List.forall_mem_nil _), rfl⟩
  | cons x xs ih =>
    obtain ⟨hx, hxs⟩ := List.forall_mem_cons.mp h
    cases xs with
    | nil =>
      have hspelled : Spelled x.spelling x ([] ++ []) := hx.spelled fun c hc => by cases hc
      have hend : Layout [] (before ++ x.spelling) [] [] := .blank (List.forall_mem_nil _)
      have hlayout := Layout.spelled_cons hspelled hend
      rw [List.append_nil] at hlayout
      exact ⟨_, spaced_singleton x ▸ hlayout, rfl⟩
    | cons y ys =>
      obtain ⟨ts, hts, hlexemes⟩ := ih hxs (before ++ x.spelling ++ [' '])
      have hspelled : Spelled x.spelling x (' ' :: spaced (y :: ys) ++ []) := hx.spelled fun c hc => by
        cases hc
        rfl
      have hlayout := Layout.spelled_cons hspelled (.blank_cons (by decide) hts)
      exact ⟨_, spaced_cons_cons x y ys ▸ hlayout, by rw [List.map_cons, hlexemes]⟩

/-- Scanning undoes spelling. Lexemes written with spaces between them are read again, with the same kinds,
texts and values and in the same order, just when each of them can stand in a text. -/
theorem scan_spaced_iff (xs : List Lexeme) :
    (∀ x ∈ xs, x.Writable) ↔
      ∃ tokens, scan (String.ofList (spaced xs)) = .ok tokens ∧ tokens.map (·.lexeme) = xs := by
  have hstart : scan (String.ofList (spaced xs)) = scanFrom (Position.start.after []) (spaced xs) := by
    rw [scan, String.toList_ofList]
    rfl
  rw [hstart]
  constructor
  · intro h
    obtain ⟨tokens, hlayout, hlexemes⟩ := layout_spaced h []
    refine ⟨tokens, ?_, hlexemes⟩
    have hscan := scanFrom_of_layout hlayout
    rw [List.append_nil, scanFrom_nil] at hscan
    calc scanFrom (Position.start.after []) (spaced xs) = (Except.ok []).map (tokens ++ ·) := hscan
      _ = .ok tokens := congrArg Except.ok (List.append_nil tokens)
  · rintro ⟨tokens, hscan, rfl⟩ x hx
    obtain ⟨t, ht, rfl⟩ := List.mem_map.mp hx
    exact Lexeme.writable_of_layout (layout_of_scanFrom hscan) t ht

end PocketBasic
