import PocketBasic.Proofs.Program.Following
import PocketBasic.Proofs.Program.Indexed

/-!
# Reading by position and reading what is left

A position stands for the cursor over the tokens behind it. `Indexed.Along` says of a reader by position and
a reader of what is left that they do the same from there: both fail with one fault, or both come to the
same result and stop at one place further on. So the reader by position comes to an end and never asks for a
token past the last one. Such facts are put together along the readers.
-/

namespace PocketBasic.Indexed

section Positions

variable {α : Type} {tokens : List Token} {i j : Nat} {t : Token}

def cursorAt (tokens : List Token) (i : Nat) : Cursor :=
  ⟨((tokens.take i).getLast?.map (·.line)).getD 0, tokens.drop i⟩

theorem cursorAt_of_getElem? (h : tokens[i]? = some t) :
    cursorAt tokens i = ⟨(cursorAt tokens i).line, t :: tokens.drop (i + 1)⟩ := by
  obtain ⟨hi, rfl⟩ := List.getElem?_eq_some_iff.mp h
  rw [← List.drop_eq_getElem_cons hi]
  rfl

theorem cursorAt_of_le (h : tokens.length ≤ i) : cursorAt tokens i = ⟨(cursorAt tokens i).line, []⟩ := by
  rw [← List.drop_eq_nil_of_le h]
  rfl

theorem cursorAt_succ (h : tokens[i]? = some t) :
    cursorAt tokens (i + 1) = ⟨t.line, tokens.drop (i + 1)⟩ := by
  rw [cursorAt, List.take_add_one, h, Option.toList_some, List.getLast?_concat]
  rfl

theorem advance_cursorAt (h : tokens[i]? = some t) :
    (cursorAt tokens i).advance = cursorAt tokens (i + 1) := by
  rw [cursorAt_of_getElem? h, cursorAt_succ h]
  rfl

theorem getElem?_of_sameLine? (h : (cursorAt tokens i).sameLine? = some t) : tokens[i]? = some t := by
  cases ht : tokens[i]? with
  | none =>
    rw [cursorAt_of_le (List.getElem?_eq_none_iff.mp ht)] at h
    cases h
  | some u =>
    rw [cursorAt_of_getElem? ht, Cursor.sameLine?] at h
    simp only [Option.ite_none_right_eq_some] at h
    exact h.2

/-! ### The steps of reading by position -/

theorem tokenAt_eq (h : tokens[j]? = some t) (i : Nat) : tokenAt tokens j i = .ok (t, i) := by
  rw [tokenAt, h]
  rfl

theorem current_eq (h : tokens[i]? = some t) : current tokens i = .ok (t, i) := tokenAt_eq h i

theorem next_eq (h : tokens[i]? = some t) : next tokens i = .ok (t, i + 1) :=
  bind_of_ok (current_eq h)

theorem atEnd_eq_false (h : tokens[i]? = some t) : atEnd tokens i = .ok (false, i) := by
  obtain ⟨hi, -⟩ := List.getElem?_eq_some_iff.mp h
  rw [← decide_eq_false (Nat.not_le.mpr hi)]
  rfl

theorem atEnd_eq_true (h : tokens.length ≤ i) : atEnd tokens i = .ok (true, i) := by
  rw [← decide_eq_true h]
  rfl

theorem check_eq (h : tokens[i]? = some t) (f : Lexeme → Option α) :
    check tokens f i = .ok (f t.lexeme, i) :=
  (bind_of_ok (atEnd_eq_false h)).trans (bind_of_ok (current_eq h))

theorem check_end (h : tokens.length ≤ i) (f : Lexeme → Option α) :
    check tokens f i = .ok (none, i) :=
  bind_of_ok (atEnd_eq_true h)

theorem accept?_some {f : Lexeme → Option α} {a : α} (h : tokens[i]? = some t) (hf : f t.lexeme = some a) :
    accept? tokens f i = .ok (some (t, a), i + 1) := by
  rw [accept?, bind_of_ok (check_eq h f), hf]
  exact bind_of_ok (next_eq h)

theorem accept?_none {f : Lexeme → Option α} (h : tokens[i]? = some t) (hf : f t.lexeme = none) :
    accept? tokens f i = .ok (none, i) := by
  rw [accept?, bind_of_ok (check_eq h f), hf]
  rfl

theorem accept?_end (h : tokens.length ≤ i) (f : Lexeme → Option α) :
    accept? tokens f i = .ok (none, i) :=
  bind_of_ok (check_end h f)

theorem position_eq (i : Nat) : (get : Indexed Nat) i = .ok (i, i) := rfl

theorem sameLine_end (h : tokens.length ≤ i) : sameLine tokens i = .ok (false, i) := by
  rw [sameLine, bind_of_ok (position_eq i), if_pos (.inl h)]
  rfl

/-- Behind a token it is seen whether the next one stands on the same line. -/
theorem sameLine_eq (hpos : 0 < i) (hi : i ≤ tokens.length) :
    sameLine tokens i = .ok ((cursorAt tokens i).sameLine?.isSome, i) := by
  cases ht : tokens[i]? with
  | none =>
    have hend := List.getElem?_eq_none_iff.mp ht
    rw [sameLine_end hend, cursorAt_of_le hend]
    rfl
  | some t =>
    obtain ⟨hlt, -⟩ := List.getElem?_eq_some_iff.mp ht
    obtain ⟨k, rfl⟩ : ∃ k, i = k + 1 := ⟨i - 1, by omega⟩
    have hu : tokens[k]? = some tokens[k] := List.getElem?_eq_getElem (by omega)
    rw [sameLine, bind_of_ok (position_eq (k + 1)),
      if_neg (by omega), bind_of_ok (tokenAt_eq ht _), Nat.add_sub_cancel, bind_of_ok (tokenAt_eq hu _),
      cursorAt_of_getElem? ht, cursorAt_succ hu]
    by_cases hline : t.line = tokens[k].line
    · simp only [Cursor.sameLine?, if_pos hline, decide_eq_true hline]
      rfl
    · simp only [Cursor.sameLine?, if_neg hline, decide_eq_false hline]
      rfl

theorem line_of_getElem? (h : tokens[i]? = some t) : line tokens i = .ok (t.line, i) :=
  (bind_of_ok (atEnd_eq_false h)).trans (bind_of_ok (current_eq h))

/-- At the end the line is that of the last token, if there is one. -/
theorem line_of_end (h : i = tokens.length) : line tokens i = .ok ((cursorAt tokens i).line, i) := by
  subst h
  rw [line, bind_of_ok (atEnd_eq_true (Nat.le_refl _))]
  cases hlast : tokens.getLast? with
  | none =>
    obtain rfl := List.getLast?_eq_none_iff.mp hlast
    rfl
  | some t =>
    have hne : ¬ tokens.length = 0 := by
      rintro hzero
      rw [List.eq_nil_of_length_eq_zero hzero] at hlast
      cases hlast
    rw [if_pos rfl, if_neg hne, bind_of_ok (tokenAt_eq (by rwa [← List.getLast?_eq_getElem?]) _), cursorAt,
      List.take_length, hlast]
    rfl

theorem unexpected_eq (hi : i ≤ tokens.length) (expected : String) :
    unexpected (α := α) tokens expected i =
      .error (.fault ((cursorAt tokens i).unexpected expected)) := by
  cases ht : tokens[i]? with
  | none =>
    have hend := List.getElem?_eq_none_iff.mp ht
    rw [unexpected, bind_of_ok (line_of_end (by omega)), bind_of_ok (atEnd_eq_true hend),
      cursorAt_of_le hend]
    rfl
  | some t =>
    rw [unexpected, bind_of_ok (line_of_getElem? ht), bind_of_ok (atEnd_eq_false ht),
      if_neg Bool.false_ne_true, bind_of_ok (current_eq ht), cursorAt_of_getElem? ht]
    rfl

end Positions

/-- Both readers fail with one fault, or both come to the same result, at a position that is at least
`least`. -/
inductive Agrees {α : Type} (tokens : List Token) (least : Nat) :
    Except Halt (α × Nat) → Except Fault (α × Cursor) → Prop where
  | ok {a : α} {j : Nat} (hleast : least ≤ j) (hj : j ≤ tokens.length) :
    Agrees tokens least (.ok (a, j)) (.ok (a, cursorAt tokens j))
  | error {e : Fault} : Agrees tokens least (.error (.fault e)) (.error e)

/-- From each position with `P` that has at most `b` tokens behind it the readers agree, and they read at
least `d` tokens. -/
def Along {α : Type} (tokens : List Token) (P : Nat → Prop) (b d : Nat) (w : Indexed α) (r : Reader α) :
    Prop :=
  ∀ i, P i → i ≤ tokens.length → tokens.length ≤ i + b →
    Agrees tokens (i + d) (w i) (r (cursorAt tokens i))

def Started (i : Nat) : Prop := 0 < i

/-- The token is the one that was read last. -/
def Behind (tokens : List Token) (t : Token) (i : Nat) : Prop := ∃ k, i = k + 1 ∧ tokens[k]? = some t

section Rules

variable {α β γ : Type} {tokens : List Token} {P : Nat → Prop} {b b' d d' : Nat} {t : Token}
  {w : Indexed α} {r : Reader α} {f : α → Indexed β} {g : α → Reader β}

theorem Agrees.mono {least least' : Nat} {o : Except Halt (α × Nat)}
    {x : Except Fault (α × Cursor)} (h : Agrees tokens least o x) (hle : least' ≤ least) :
    Agrees tokens least' o x := by
  cases h with
  | ok hleast hj => exact .ok (Nat.le_trans hle hleast) hj
  | error => exact .error

theorem Along.mono (h : Along tokens P b d w r) (hb : b' ≤ b) : Along tokens P b' d w r :=
  fun i hP hi hle => h i hP hi (by omega)

theorem Along.weaken (h : Along tokens P b d w r) : Along tokens P b 0 w r :=
  fun i hP hi hle => (h i hP hi hle).mono (by omega)

theorem Along.behind (h : Along tokens Started b d w r) : Along tokens (Behind tokens t) b d w r := by
  rintro i ⟨k, rfl, -⟩
  exact h (k + 1) (Nat.succ_pos k)

theorem along_pure (a : α) : Along tokens P b 0 (pure a) (pure a) :=
  fun i _ hi _ => .ok (Nat.le_refl i) hi

theorem along_throw (e : Fault) : Along (α := α) tokens P b d (throw (.fault e)) (throw e) :=
  fun _ _ _ _ => .error

/-- Where the first reader needs no token, one has been read before it. -/
theorem along_bind (h : Along tokens P b d w r) (hP : ∀ i, P i → 0 < i + d)
    (hf : ∀ a, Along tokens Started (b - d) 0 (f a) (g a)) : Along tokens P b d (w >>= f) (r >>= g) := by
  intro i hi hlen hle
  have hfirst := h i hi hlen hle
  generalize hw : w i = o at hfirst
  generalize hr : r (cursorAt tokens i) = x at hfirst
  cases hfirst with
  | error =>
    rw [bind_of_error hw, bind_of_error hr]
    exact .error
  | ok hleast hj =>
    rw [bind_of_ok hw, bind_of_ok hr]
    have hpos := hP i hi
    exact (hf _ _ (Nat.lt_of_lt_of_le hpos hleast) hj (by omega)).mono (by omega)

theorem along_bind_first (h : Along tokens P b 1 w r)
    (hf : ∀ a, Along tokens Started (b - 1) 0 (f a) (g a)) : Along tokens P b 1 (w >>= f) (r >>= g) :=
  along_bind h (fun _ _ => Nat.succ_pos _) hf

theorem along_bind_later (h : Along tokens Started b d w r)
    (hf : ∀ a, Along tokens Started (b - d) 0 (f a) (g a)) :
    Along tokens Started b d (w >>= f) (r >>= g) :=
  along_bind h (fun _ hi => Nat.add_pos_left hi d) hf

theorem along_map (h : Along tokens P b d w r) (k : α → β) : Along tokens P b d (k <$> w) (k <$> r) := by
  intro i hi hlen hle
  have hfirst := h i hi hlen hle
  change Agrees tokens (i + d) ((w >>= fun a => pure (k a)) i)
    ((r >>= fun a => pure (k a)) (cursorAt tokens i))
  generalize hw : w i = o at hfirst
  generalize hr : r (cursorAt tokens i) = x at hfirst
  cases hfirst with
  | error =>
    rw [bind_of_error hw, bind_of_error hr]
    exact .error
  | ok hleast hj =>
    rw [bind_of_ok hw, bind_of_ok hr]
    exact .ok hleast hj

theorem along_expect (p : Lexeme → Option α) (expected : String) :
    Along tokens P b 1 (expect tokens p expected) (Reader.expect p expected) := by
  intro i _ hi _
  cases ht : tokens[i]? with
  | none =>
    have hend := List.getElem?_eq_none_iff.mp ht
    rw [expect, bind_of_ok (check_end hend p)]
    change Agrees tokens (i + 1) (unexpected tokens expected i) _
    rw [unexpected_eq hi, cursorAt_of_le hend]
    exact .error
  | some t =>
    obtain ⟨hlt, -⟩ := List.getElem?_eq_some_iff.mp ht
    rw [expect, bind_of_ok (check_eq ht p)]
    cases hp : p t.lexeme with
    | none =>
      change Agrees tokens (i + 1) (unexpected tokens expected i) _
      rw [unexpected_eq hi, cursorAt_of_getElem? ht]
      simp only [Reader.expect, hp]
      exact .error
    | some a =>
      have hread : Reader.expect p expected (cursorAt tokens i) = .ok (a, cursorAt tokens (i + 1)) := by
        rw [cursorAt_of_getElem? ht, cursorAt_succ ht]
        simp only [Reader.expect, hp]
      rw [hread]
      change Agrees tokens (i + 1) ((next tokens >>= fun _ => pure a) i) _
      rw [bind_of_ok (next_eq ht)]
      exact .ok (Nat.le_refl _) hlt

theorem along_token (p : Lexeme → Option α) (expected : String) :
    Along tokens Started b 0 (expect tokens p expected) (Reader.expect p expected) :=
  (along_expect p expected).weaken

theorem along_accept {p : Lexeme → Option α} {f : Option (Token × α) → Indexed β}
    {g : Option α → Reader β} (hnone : Along tokens Started b 0 (f none) (g none))
    (hsome : ∀ t a, Along tokens (Behind tokens t) (b - 1) 0 (f (some (t, a))) (g (some a))) :
    Along tokens Started b 0 (accept? tokens p >>= f) (Reader.accept? p >>= g) := by
  intro i hpos hi hle
  cases ht : tokens[i]? with
  | none =>
    have hend := List.getElem?_eq_none_iff.mp ht
    have hread : (Reader.accept? p >>= g) (cursorAt tokens i) = g none (cursorAt tokens i) := by
      rw [cursorAt_of_le hend]
      rfl
    rw [bind_of_ok (accept?_end hend p), hread]
    exact hnone i hpos hi hle
  | some t =>
    obtain ⟨hlt, -⟩ := List.getElem?_eq_some_iff.mp ht
    have hread := Reader.accept?_bind_cons p g (cursorAt tokens i).line t (tokens.drop (i + 1))
    rw [← cursorAt_of_getElem? ht, ← cursorAt_succ ht] at hread
    rw [hread]
    cases hp : p t.lexeme with
    | none =>
      rw [bind_of_ok (accept?_none ht hp)]
      exact hnone i hpos hi hle
    | some a =>
      rw [bind_of_ok (accept?_some ht hp)]
      exact (hsome t a (i + 1) ⟨i, rfl, ht⟩ hlt (by omega)).mono (by omega)

theorem along_acceptSameLine {p : Lexeme → Option α} {f : Option (Token × α) → Indexed β}
    {g : Option α → Reader β} (hnone : Along tokens Started b 0 (f none) (g none))
    (hsome : ∀ t a, Along tokens (Behind tokens t) (b - 1) 0 (f (some (t, a))) (g (some a))) :
    Along tokens Started b 0 (acceptSameLine? tokens p >>= f) (Reader.acceptSameLine? p >>= g) := by
  intro i hpos hi hle
  rw [Reader.acceptSameLine?_bind]
  cases hsame : (cursorAt tokens i).sameLine? with
  | none =>
    have hrest : acceptSameLine? tokens p i = .ok (none, i) := by
      rw [acceptSameLine?, bind_of_ok (sameLine_eq hpos hi), hsame]
      rfl
    rw [bind_of_ok hrest]
    exact hnone i hpos hi hle
  | some t =>
    have ht := getElem?_of_sameLine? hsame
    obtain ⟨hlt, -⟩ := List.getElem?_eq_some_iff.mp ht
    have haccept : acceptSameLine? tokens p i = accept? tokens p i := by
      rw [acceptSameLine?, bind_of_ok (sameLine_eq hpos hi), hsame]
      rfl
    rw [Option.bind_some, advance_cursorAt ht]
    cases hp : p t.lexeme with
    | none =>
      rw [bind_of_ok (haccept.trans (accept?_none ht hp))]
      exact hnone i hpos hi hle
    | some a =>
      rw [bind_of_ok (haccept.trans (accept?_some ht hp))]
      exact (hsome t a (i + 1) ⟨i, rfl, ht⟩ hlt (by omega)).mono (by omega)

theorem along_currentLine {g : Nat → Reader α} (h : Along tokens (Behind tokens t) b d w (g t.line)) :
    Along tokens (Behind tokens t) b d w (Reader.currentLine >>= g) := by
  rintro i ⟨k, rfl, ht⟩ hi hle
  have hline : (cursorAt tokens (k + 1)).line = t.line := by rw [cursorAt_succ ht]
  have hread : (Reader.currentLine >>= g) (cursorAt tokens (k + 1)) = g t.line (cursorAt tokens (k + 1)) := by
    rw [← hline]
    rfl
  rw [hread]
  exact h (k + 1) ⟨k, rfl, ht⟩ hi hle

theorem along_moreOnLine : Along tokens Started b 0 (sameLine tokens) Reader.moreOnLine := by
  intro i hpos hi _
  rw [sameLine_eq hpos hi]
  exact .ok (Nat.le_refl i) hi

theorem agrees_next {i : Nat} (ht : tokens[i]? = some t) (h : Along tokens (Behind tokens t) b 0 w r)
    (hle : tokens.length ≤ i + (b + 1)) :
    Agrees tokens (i + 1) ((next tokens >>= fun _ => w) i) (r ⟨t.line, tokens.drop (i + 1)⟩) := by
  obtain ⟨hlt, -⟩ := List.getElem?_eq_some_iff.mp ht
  rw [bind_of_ok (next_eq ht), ← cursorAt_succ ht]
  exact h (i + 1) ⟨i, rfl, ht⟩ hlt (by omega)

/-- The reader returns `a` at the end of the tokens and stays there. -/
def Rests (tokens : List Token) (w : Indexed α) (a : α) : Prop :=
  ∀ i, tokens.length ≤ i → 0 < i → w i = .ok (a, i)

theorem rests_acceptSameLine {p : Lexeme → Option α} {f : Option (Token × α) → Indexed β} {x : β}
    (h : Rests tokens (f none) x) : Rests tokens (acceptSameLine? tokens p >>= f) x := by
  intro i hend hpos
  have hrest : acceptSameLine? tokens p i = .ok (none, i) := by
    rw [acceptSameLine?, bind_of_ok (sameLine_end hend)]
    rfl
  rw [bind_of_ok hrest]
  exact h i hend hpos

theorem along_of_rests {a : α} (h : Rests tokens w a) (h' : Reader.Rests r a) :
    Along tokens Started 0 0 w r := by
  intro i hpos hi hle
  have hend : tokens.length ≤ i := hle
  have hsame : (cursorAt tokens i).sameLine? = none := by
    rw [cursorAt_of_le hend]
    exact Cursor.sameLine?_nil _
  rw [h i hend hpos, h' _ hsame]
  exact .ok (Nat.le_refl i) hi

end Rules

end PocketBasic.Indexed
