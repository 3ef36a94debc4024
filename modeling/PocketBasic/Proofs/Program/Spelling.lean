import Mathlib.Data.List.TakeWhile
import PocketBasic.Proofs.Program.Lines
import PocketBasic.Proofs.Text.Pieces

/-!
# How lexemes are spelled

`Spelled s x more` says that the characters `s` spell the lexeme `x` where the characters `more` follow, and
`Offends s more` that no lexeme starts with the first of the characters `s`, or that they are a number out of
range. The reader of a lexeme finds just the spellings, and it fails just for the characters that offend.
-/

namespace PocketBasic

/-- Digits, or digits on both sides of a point. -/
inductive NumberWord : List Char → Prop
  | whole {ds : List Char} (hne : ds ≠ []) (hds : ∀ c ∈ ds, Number.isDecimalDigit c = true) : NumberWord ds
  | fraction {ds es : List Char} (hne : ds ≠ []) (hds : ∀ c ∈ ds, Number.isDecimalDigit c = true)
      (hne' : es ≠ []) (hes : ∀ c ∈ es, Number.isDecimalDigit c = true) : NumberWord (ds ++ '.' :: es)

/-- The following text does not go on with a character of a word. -/
def EndsWord (more : List Char) : Prop := ∀ c, more.head? = some c → isWordChar c = false

/-- Whether the lexeme is an operator, a comparison, an arrow, a parenthesis or a comma. -/
inductive Lexeme.IsSign : Lexeme → Prop
  | operator (sign : ArithmeticSign) : IsSign (.operator sign)
  | comparison (sign : ComparisonSign) : IsSign (.comparison sign)
  | assignment : IsSign .assignment
  | openParen : IsSign .openParen
  | closeParen : IsSign .closeParen
  | comma : IsSign .comma

/-- The character that would make the sign a longer one. -/
def Lexeme.longerWith : Lexeme → Option Char
  | .operator .minus => some '>'
  | .comparison .less | .comparison .greater => some '='
  | _ => none

inductive Spelled : List Char → Lexeme → List Char → Prop
  | number {s more : List Char} {value : Float} (hs : NumberWord s)
      (hvalue : Number.read? (String.ofList s) = some value) (hend : EndsWord more) :
      Spelled s (.number (String.ofList s) value) more
  | identifier {s more : List Char} (hne : s ≠ []) (hword : ∀ c ∈ s, isWordChar c = true)
      (hnot : ¬ NumberWord s) (hend : EndsWord more) : Spelled s (.identifier (String.ofList s)) more
  | closed {body more : List Char} (hbody : '"' ∉ body) :
      Spelled ('"' :: body ++ ['"']) (.string (String.ofList body)) more
  /-- The closing quote can be missing at the end of the text only. -/
  | unclosed {body : List Char} (hbody : '"' ∉ body) :
      Spelled ('"' :: body) (.string (String.ofList body)) []
  | sign {x : Lexeme} {more : List Char} (hx : x.IsSign)
      (hend : ∀ c, x.longerWith = some c → more.head? ≠ some c) : Spelled x.text.toList x more

def StartsLexeme (c : Char) : Prop :=
  isWordChar c = true ∨ c ∈ ['"', '+', '-', '*', '/', '%', '>', '<', '=', '!', '(', ')', ',']

inductive Offends : List Char → List Char → Prop
  | character {c : Char} {more : List Char} (hblank : Text.isBlank c = false) (hstart : ¬ StartsLexeme c) :
      Offends [c] more
  | number {s more : List Char} (hs : NumberWord s) (hvalue : Number.read? (String.ofList s) = none)
      (hend : EndsWord more) : Offends s more

section Characters

variable {c : Char} {s more : List Char}

theorem toNat_of_isWordChar (h : isWordChar c = true) : 46 ≤ c.toNat ∧ c.toNat ≤ 122 := by
  simp only [isWordChar, Bool.or_eq_true, Bool.and_eq_true, decide_eq_true_eq, Char.le_def,
    UInt32.le_iff_toNat_le] at h
  rcases h with h | rfl
  · have hchar : c.toNat = c.val.toNat := rfl
    have ha : 'a'.val.toNat = 97 := rfl
    have hz : 'z'.val.toNat = 122 := rfl
    have hA : 'A'.val.toNat = 65 := rfl
    have hZ : 'Z'.val.toNat = 90 := rfl
    have h0 : '0'.val.toNat = 48 := rfl
    have h9 : '9'.val.toNat = 57 := rfl
    omega
  · decide

theorem isBlank_of_isWordChar (h : isWordChar c = true) : Text.isBlank c = false := by
  have hrange := toNat_of_isWordChar h
  exact Text.isBlank_of_visible (by omega) (by omega)

theorem isWordChar_of_isDecimalDigit (h : Number.isDecimalDigit c = true) : isWordChar c = true := by
  unfold Number.isDecimalDigit at h
  simp only [isWordChar, h, Bool.or_true, Bool.true_or]

theorem NumberWord.ne_nil (h : NumberWord s) : s ≠ [] := by
  cases h with
  | whole hne _ => exact hne
  | fraction hne _ _ _ => simp

theorem NumberWord.isWordChar (h : NumberWord s) : ∀ c ∈ s, isWordChar c = true := by
  have hdigits {ds : List Char} (hds : ∀ c ∈ ds, Number.isDecimalDigit c = true) :
      ∀ c ∈ ds, PocketBasic.isWordChar c = true := fun c hc => isWordChar_of_isDecimalDigit (hds c hc)
  cases h with
  | whole _ hds => exact hdigits hds
  | fraction _ hds _ hes =>
    intro c hc
    rcases List.mem_append.mp hc with hc | hc
    · exact hdigits hds c hc
    · rcases List.mem_cons.mp hc with rfl | hc
      · decide
      · exact hdigits hes c hc

/-- The longest run at the start of a text is told by its members and by what follows it. -/
theorem takeWhile_run {p : Char → Bool} (hs : ∀ c ∈ s, p c = true)
    (hmore : ∀ c, more.head? = some c → p c = false) : (s ++ more).takeWhile p = s := by
  have hall : s.takeWhile p = s := List.takeWhile_eq_self_iff.mpr hs
  cases more with
  | nil => rw [List.append_nil, hall]
  | cons c more => rw [takeWhile_append_stop (hmore c rfl), hall]

theorem dropWhile_run {p : Char → Bool} (hs : ∀ c ∈ s, p c = true)
    (hmore : ∀ c, more.head? = some c → p c = false) : (s ++ more).dropWhile p = more := by
  have hsplit := List.takeWhile_append_dropWhile (p := p) (l := s ++ more)
  rw [takeWhile_run hs hmore] at hsplit
  exact List.append_cancel_left hsplit

theorem isNumberWord_iff : isNumberWord s = true ↔ NumberWord s := by
  constructor
  · intro h
    have hdigits : ∀ c ∈ s.takeWhile Number.isDecimalDigit, Number.isDecimalDigit c = true :=
      fun c hc => List.mem_takeWhile_imp hc
    have hsplit := List.takeWhile_append_dropWhile (p := Number.isDecimalDigit) (l := s)
    unfold isNumberWord at h
    split at h
    · next hnil =>
      rw [hnil, List.append_nil] at hsplit
      rw [hsplit] at hdigits
      exact .whole (by simpa using h) hdigits
    · next fraction hpoint =>
      rw [hpoint] at hsplit
      simp only [Bool.and_eq_true, bne_iff_ne, Bool.not_eq_true', List.isEmpty_eq_false_iff,
        List.all_eq_true] at h
      obtain ⟨⟨hhead, hne⟩, hall⟩ := h
      have hne' : s.takeWhile Number.isDecimalDigit ≠ [] := by
        intro hnil
        rw [hnil, List.nil_append] at hsplit
        exact hhead (by rw [← hsplit]; rfl)
      rw [← hsplit]
      exact .fraction hne' hdigits hne hall
    · cases h
  · intro h
    cases h with
    | whole hne hds =>
      have hnil : s.dropWhile Number.isDecimalDigit = [] := List.dropWhile_eq_nil_iff.mpr hds
      unfold isNumberWord
      rw [hnil]
      simpa using hne
    | @fraction ds es hne hds hne' hes =>
      have hpoint : (ds ++ '.' :: es).dropWhile Number.isDecimalDigit = '.' :: es := by
        refine dropWhile_run hds fun c hc => ?_
        cases hc
        decide
      have hhead : (ds ++ '.' :: es).head? ≠ some '.' := by
        cases ds with
        | nil => exact absurd rfl hne
        | cons d ds =>
          intro hd
          cases hd
          exact absurd (hds '.' List.mem_cons_self) (by decide)
      unfold isNumberWord
      rw [hpoint]
      simp only [Bool.and_eq_true, bne_iff_ne, Bool.not_eq_true', List.isEmpty_eq_false_iff,
        List.all_eq_true]
      exact ⟨⟨hhead, hne'⟩, hes⟩

end Characters

namespace Lexeme

variable {c : Char} {s cs more : List Char} {x : Lexeme} {k : Nat} {text : String}

theorem read_word (hword : ∀ d ∈ c :: s, isWordChar d = true) (hend : EndsWord more) :
    read c (s ++ more) = (ofWord (c :: s)).map (·, s.length) := by
  have hmore : (s ++ more).takeWhile isWordChar = s :=
    takeWhile_run (fun d hd => hword d (List.mem_cons_of_mem c hd)) hend
  simp only [read, if_pos (hword c List.mem_cons_self), hmore]

theorem ofWord_number (h : NumberWord s) :
    ofWord s = match Number.read? (String.ofList s) with
      | some value => .ok (.number (String.ofList s) value)
      | none => .error (String.ofList s) :=
  if_pos (isNumberWord_iff.mpr h)

theorem ofWord_identifier (h : ¬ NumberWord s) : ofWord s = .ok (.identifier (String.ofList s)) :=
  if_neg fun hnumber => h (isNumberWord_iff.mp hnumber)

theorem read_string (hs : '"' ∉ s) (hmore : more = [] ∨ more.head? = some '"') :
    read '"' (s ++ more) =
      .ok (.string (String.ofList s), s.length + if more = [] then 0 else 1) := by
  have hbody : (s ++ more).takeWhile (· ≠ '"') = s := by
    refine takeWhile_run (fun d hd => decide_eq_true fun h => hs (h ▸ hd)) fun d hd => ?_
    rcases hmore with rfl | hquote
    · cases hd
    · rw [hquote] at hd
      cases hd
      decide
  have hword : ¬ isWordChar '"' = true := by decide
  simp only [read, if_neg hword, hbody, List.length_append]
  cases more with
  | nil => simp
  | cons d more => simp

theorem read_sign (hx : x.IsSign) (hend : ∀ d, x.longerWith = some d → more.head? ≠ some d) :
    ∃ c cs, x.text.toList = c :: cs ∧ Text.isBlank c = false ∧
      read c (cs ++ more) = .ok (x, cs.length) := by
  cases hx with
  | operator sign =>
    cases sign with
    | minus =>
      refine ⟨'-', [], rfl, by decide, ?_⟩
      exact congrArg Except.ok (if_neg (hend '>' rfl))
    | plus => exact ⟨'+', [], rfl, by decide, rfl⟩
    | times => exact ⟨'*', [], rfl, by decide, rfl⟩
    | slash => exact ⟨'/', [], rfl, by decide, rfl⟩
    | percent => exact ⟨'%', [], rfl, by decide, rfl⟩
  | comparison sign =>
    cases sign with
    | less =>
      refine ⟨'<', [], rfl, by decide, ?_⟩
      exact congrArg Except.ok (if_neg (hend '=' rfl))
    | greater =>
      refine ⟨'>', [], rfl, by decide, ?_⟩
      exact congrArg Except.ok (if_neg (hend '=' rfl))
    | equals => exact ⟨'=', [], rfl, by decide, rfl⟩
    | bang => exact ⟨'!', [], rfl, by decide, rfl⟩
    | lessEquals => exact ⟨'<', ['='], rfl, by decide, rfl⟩
    | greaterEquals => exact ⟨'>', ['='], rfl, by decide, rfl⟩
  | assignment => exact ⟨'-', ['>'], rfl, by decide, rfl⟩
  | openParen => exact ⟨'(', [], rfl, by decide, rfl⟩
  | closeParen => exact ⟨')', [], rfl, by decide, rfl⟩
  | comma => exact ⟨',', [], rfl, by decide, rfl⟩

theorem read_of_spelled (h : Spelled s x more) :
    ∃ c cs, s = c :: cs ∧ Text.isBlank c = false ∧ read c (cs ++ more) = .ok (x, cs.length) := by
  cases h with
  | number hs hvalue hend =>
    obtain ⟨c, cs, rfl⟩ := List.exists_cons_of_ne_nil hs.ne_nil
    have hword := hs.isWordChar
    refine ⟨c, cs, rfl, isBlank_of_isWordChar (hword c List.mem_cons_self), ?_⟩
    rw [read_word hword hend, ofWord_number hs, hvalue]
    rfl
  | identifier hne hword hnot hend =>
    obtain ⟨c, cs, rfl⟩ := List.exists_cons_of_ne_nil hne
    refine ⟨c, cs, rfl, isBlank_of_isWordChar (hword c List.mem_cons_self), ?_⟩
    rw [read_word hword hend, ofWord_identifier hnot]
    rfl
  | @closed body _ hbody =>
    refine ⟨'"', body ++ ['"'], rfl, by decide, ?_⟩
    rw [List.append_assoc, read_string hbody (.inr rfl), List.length_append]
    rfl
  | unclosed hbody => exact ⟨'"', _, rfl, by decide, read_string hbody (.inl rfl)⟩
  | sign hx hend => exact read_sign hx hend

theorem endsWord_dropWhile (cs : List Char) : EndsWord (cs.dropWhile isWordChar) := by
  intro d hd
  have hnot := List.head?_dropWhile_not isWordChar cs
  rw [hd] at hnot
  exact hnot

theorem isWordChar_of_takeWhile (hword : isWordChar c = true) :
    ∀ d ∈ c :: cs.takeWhile isWordChar, isWordChar d = true := by
  intro d hd
  rcases List.mem_cons.mp hd with rfl | hd
  · exact hword
  · exact List.mem_takeWhile_imp hd

/-- At the start of a word the word up to its end is read. -/
theorem read_of_isWordChar (hword : isWordChar c = true) :
    read c cs = (ofWord (c :: cs.takeWhile isWordChar)).map (·, (cs.takeWhile isWordChar).length) := by
  simp only [read, if_pos hword]

theorem spelled_of_read_word (hword : isWordChar c = true) (h : read c cs = .ok (x, k)) :
    Spelled (c :: cs.take k) x (cs.drop k) := by
  have hsplit := List.takeWhile_append_dropWhile (p := isWordChar) (l := cs)
  have hend := endsWord_dropWhile cs
  have hchars : ∀ d ∈ c :: cs.takeWhile isWordChar, isWordChar d = true := isWordChar_of_takeWhile hword
  rw [read_of_isWordChar hword] at h
  generalize cs.takeWhile isWordChar = s at h hsplit hchars
  generalize cs.dropWhile isWordChar = more at hsplit hend
  subst hsplit
  by_cases hnumber : NumberWord (c :: s)
  · rw [ofWord_number hnumber] at h
    cases hvalue : Number.read? (String.ofList (c :: s)) with
    | none =>
      rw [hvalue] at h
      cases h
    | some value =>
      rw [hvalue] at h
      cases h
      rw [List.take_left, List.drop_left]
      exact .number hnumber hvalue hend
  · rw [ofWord_identifier hnumber] at h
    cases h
    rw [List.take_left, List.drop_left]
    exact .identifier (List.cons_ne_nil c s) hchars hnumber hend

theorem spelled_of_read_string (h : read '"' cs = .ok (x, k)) :
    Spelled ('"' :: cs.take k) x (cs.drop k) := by
  by_cases hquote : '"' ∈ cs
  · obtain ⟨body, more, rfl, hbody⟩ := List.eq_append_cons_of_mem hquote
    rw [read_string hbody (.inr rfl)] at h
    obtain ⟨rfl, rfl⟩ := Prod.mk.inj (Except.ok.inj h)
    have hsplit : body ++ '"' :: more = (body ++ ['"']) ++ more := by simp
    have hlength : body.length + (if '"' :: more = [] then 0 else 1) = (body ++ ['"']).length := by simp
    rw [hlength, hsplit, List.take_left, List.drop_left]
    exact .closed hbody
  · have hread : read '"' (cs ++ []) = _ := read_string hquote (.inl rfl)
    rw [List.append_nil, h] at hread
    obtain ⟨rfl, rfl⟩ := Prod.mk.inj (Except.ok.inj hread)
    rw [if_pos rfl, Nat.add_zero, List.take_length, List.drop_length]
    exact .unclosed hquote

theorem spelled_of_read_sign (hword : isWordChar c = false) (hc : c ≠ '"') (h : read c cs = .ok (x, k)) :
    Spelled (c :: cs.take k) x (cs.drop k) := by
  have hsingle {y : Lexeme} (hy : y.IsSign) (htext : y.text.toList = [c])
      (hend : ∀ d, y.longerWith = some d → cs.head? ≠ some d) (h : (y, 0) = (x, k)) :
      Spelled (c :: cs.take k) x (cs.drop k) := by
    cases h
    exact htext ▸ .sign hy hend
  have hpair {d : Char} {y z : Lexeme} (hy : y.IsSign) (hytext : y.text.toList = [c, d])
      (hylonger : y.longerWith = none) (hz : z.IsSign) (hztext : z.text.toList = [c])
      (hzlonger : z.longerWith = some d)
      (h : (if cs.head? = some d then (y, 1) else (z, 0)) = (x, k)) :
      Spelled (c :: cs.take k) x (cs.drop k) := by
    split at h
    · next hhead =>
      cases h
      obtain ⟨rest, rfl⟩ := List.head?_eq_some_iff.mp hhead
      exact hytext ▸ .sign hy fun e he => by rw [hylonger] at he; cases he
    · next hhead =>
      refine hsingle hz hztext (fun e he => ?_) h
      rw [hzlonger] at he
      cases he
      exact hhead
  unfold read at h
  rw [if_neg (by simp [hword])] at h
  split at h
  · exact absurd rfl hc
  · exact hsingle (.operator .plus) rfl nofun (Except.ok.inj h)
  · exact hsingle (.operator .times) rfl nofun (Except.ok.inj h)
  · exact hsingle (.operator .slash) rfl nofun (Except.ok.inj h)
  · exact hsingle (.operator .percent) rfl nofun (Except.ok.inj h)
  · exact hpair .assignment rfl rfl (.operator .minus) rfl rfl (Except.ok.inj h)
  · exact hpair (.comparison .greaterEquals) rfl rfl (.comparison .greater) rfl rfl (Except.ok.inj h)
  · exact hpair (.comparison .lessEquals) rfl rfl (.comparison .less) rfl rfl (Except.ok.inj h)
  · exact hsingle (.comparison .equals) rfl nofun (Except.ok.inj h)
  · exact hsingle (.comparison .bang) rfl nofun (Except.ok.inj h)
  · exact hsingle .openParen rfl nofun (Except.ok.inj h)
  · exact hsingle .closeParen rfl nofun (Except.ok.inj h)
  · exact hsingle .comma rfl nofun (Except.ok.inj h)
  · cases h

/-- What is read is a spelling of the lexeme, and the rest of the text follows it. -/
theorem spelled_of_read (h : read c cs = .ok (x, k)) : Spelled (c :: cs.take k) x (cs.drop k) := by
  cases hword : isWordChar c with
  | true => exact spelled_of_read_word hword h
  | false =>
    by_cases hc : c = '"'
    · subst hc
      exact spelled_of_read_string h
    · exact spelled_of_read_sign hword hc h

/-- Off words, the reader stops at just those characters that start no lexeme. -/
theorem read_eq_error_iff (hword : isWordChar c = false) :
    read c cs = .error text ↔ ¬ StartsLexeme c ∧ text = String.ofList [c] := by
  have hstart : StartsLexeme c ↔ c ∈ ['"', '+', '-', '*', '/', '%', '>', '<', '=', '!', '(', ')', ','] := by
    rw [StartsLexeme, hword, or_iff_right Bool.false_ne_true]
  have hsingleton : String.singleton c = String.ofList [c] := String.singleton_eq_ofList
  rw [hstart]
  unfold read
  rw [if_neg (by simp [hword])]
  split
  case h_14 =>
    have hnot : c ∉ ['"', '+', '-', '*', '/', '%', '>', '<', '=', '!', '(', ')', ','] := by simp_all
    rw [hsingleton]
    exact ⟨fun h => ⟨hnot, (Except.error.inj h).symm⟩, fun h => by rw [h.2]⟩
  all_goals simp

theorem read_of_not_startsLexeme (hstart : ¬ StartsLexeme c) :
    read c cs = .error (String.ofList [c]) :=
  (read_eq_error_iff (Bool.eq_false_iff.mpr fun h => hstart (.inl h))).mpr ⟨hstart, rfl⟩

theorem read_of_offends (h : Offends s more) :
    ∃ c cs, s = c :: cs ∧ Text.isBlank c = false ∧ read c (cs ++ more) = .error (String.ofList s) := by
  cases h with
  | character hblank hstart => exact ⟨_, [], rfl, hblank, read_of_not_startsLexeme hstart⟩
  | number hs hvalue hend =>
    obtain ⟨c, cs, rfl⟩ := List.exists_cons_of_ne_nil hs.ne_nil
    have hword := hs.isWordChar
    refine ⟨c, cs, rfl, isBlank_of_isWordChar (hword c List.mem_cons_self), ?_⟩
    rw [read_word hword hend, ofWord_number hs, hvalue]
    rfl

theorem offends_of_read (hblank : Text.isBlank c = false) (h : read c cs = .error text) :
    ∃ s more, cs = s ++ more ∧ Offends (c :: s) more ∧ text = String.ofList (c :: s) := by
  cases hword : isWordChar c with
  | true =>
    refine ⟨cs.takeWhile isWordChar, cs.dropWhile isWordChar, List.takeWhile_append_dropWhile.symm, ?_⟩
    rw [read_of_isWordChar hword] at h
    by_cases hnumber : NumberWord (c :: cs.takeWhile isWordChar)
    · rw [ofWord_number hnumber] at h
      cases hvalue : Number.read? (String.ofList (c :: cs.takeWhile isWordChar)) with
      | none =>
        rw [hvalue] at h
        cases h
        exact ⟨.number hnumber hvalue (endsWord_dropWhile cs), rfl⟩
      | some value =>
        rw [hvalue] at h
        cases h
    · rw [ofWord_identifier hnumber] at h
      cases h
  | false =>
    obtain ⟨hstart, htext⟩ := (read_eq_error_iff hword).mp h
    exact ⟨[], cs, rfl, .character hblank hstart, htext⟩

end Lexeme

end PocketBasic
