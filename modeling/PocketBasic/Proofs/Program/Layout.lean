import Mathlib.Data.List.Induction
import PocketBasic.Proofs.Program.Spelling

/-!
# Where the tokens of a text stand

`Layout rest before text ts` says that the text is made of blanks and of spellings of the tokens `ts`, in
this order, where `before` stands before it and `rest` follows. The line and the column of a token are told
by all that stands before its spelling. A text is read as tokens just when it has such a layout, and reading
it fails just where a layout is followed by characters that offend.
-/

namespace PocketBasic

def lineAt (before : List Char) : Nat := 1 + before.count '\n'

/-- The column of the next character, which counts from the last line break on. -/
def colAt (before : List Char) : Nat := 1 + (before.reverse.takeWhile (· ≠ '\n')).length

inductive Layout (rest : List Char) : List Char → List Char → List Token → Prop
  | blank {before ws : List Char} (hws : ∀ c ∈ ws, Text.isBlank c = true) : Layout rest before ws []
  | token {before ws s more : List Char} {x : Lexeme} {ts : List Token}
      (hws : ∀ c ∈ ws, Text.isBlank c = true) (hspelled : Spelled s x (more ++ rest))
      (hmore : Layout rest (before ++ ws ++ s) more ts) :
      Layout rest before (ws ++ s ++ more) (⟨x, lineAt (before ++ ws), colAt (before ++ ws)⟩ :: ts)

namespace Position

/-- Reading on from the start keeps the line and the column of the next character. -/
theorem after_start (before : List Char) : start.after before = ⟨lineAt before, colAt before⟩ := by
  induction before using List.reverseRecOn with
  | nil => rfl
  | append_singleton before c ih =>
    have hnext : start.after (before ++ [c]) = (start.after before).next c := after_append start before [c]
    rw [hnext, ih]
    unfold next lineAt colAt
    by_cases hc : c = '\n'
    · simp [hc, Nat.add_assoc]
    · simp [hc, Nat.add_comm]

end Position

namespace Layout

variable {rest before text : List Char} {ts : List Token} {c : Char}

theorem blank_cons (hc : Text.isBlank c = true) (h : Layout rest (before ++ [c]) text ts) :
    Layout rest before (c :: text) ts := by
  have hblanks {ws : List Char} (hws : ∀ d ∈ ws, Text.isBlank d = true) :
      ∀ d ∈ c :: ws, Text.isBlank d = true := List.forall_mem_cons.mpr ⟨hc, hws⟩
  cases h with
  | blank hws => exact .blank (hblanks hws)
  | @token _ ws s more x ts hws hspelled hmore =>
    rw [List.append_assoc before [c] ws] at hmore ⊢
    exact .token (hblanks hws) hspelled hmore

theorem spelled_cons {s : List Char} {x : Lexeme} (hspelled : Spelled s x (text ++ rest))
    (h : Layout rest (before ++ s) text ts) :
    Layout rest before (s ++ text) (⟨x, lineAt before, colAt before⟩ :: ts) := by
  rw [← List.append_nil before] at h
  have htoken := token (List.forall_mem_nil _) hspelled h
  rwa [List.nil_append, List.append_nil] at htoken

end Layout

section Reading

variable {p : Position} {before cs rest text ws : List Char} {ts : List Token} {fault : Fault}

theorem scanFrom_blanks (hws : ∀ c ∈ ws, Text.isBlank c = true) :
    scanFrom p (ws ++ cs) = scanFrom (p.after ws) cs := by
  induction ws generalizing p with
  | nil => rfl
  | cons c ws ih =>
    obtain ⟨hc, hws'⟩ := List.forall_mem_cons.mp hws
    rw [List.cons_append, scanFrom_cons, if_pos hc, ih hws']
    rfl

theorem scanFrom_spelled {s : List Char} {x : Lexeme} (h : Spelled s x cs) :
    scanFrom p (s ++ cs) = (scanFrom (p.after s) cs).map (⟨x, p.line, p.col⟩ :: ·) := by
  obtain ⟨c, s', rfl, hblank, hread⟩ := Lexeme.read_of_spelled h
  rw [List.cons_append, scanFrom_cons, if_neg (by simp [hblank]), hread]
  simp only [List.take_left, List.drop_left]

theorem scanFrom_offends {s : List Char} (h : Offends s cs) :
    scanFrom p (s ++ cs) = .error (.unexpectedCharacter p.line p.col (Text.quote (String.ofList s))) := by
  obtain ⟨c, s', rfl, hblank, hread⟩ := Lexeme.read_of_offends h
  rw [List.cons_append, scanFrom_cons, if_neg (by simp [hblank]), hread]

/-- A text that is laid out is read as its tokens, and then the rest is read. -/
theorem scanFrom_of_layout (h : Layout rest before text ts) :
    scanFrom (Position.start.after before) (text ++ rest) =
      (scanFrom (Position.start.after (before ++ text)) rest).map (ts ++ ·) := by
  induction h with
  | @blank before ws hws =>
    rw [scanFrom_blanks hws, ← Position.after_append]
    cases scanFrom (Position.start.after (before ++ ws)) rest <;> rfl
  | @token before ws s more x ts hws hspelled hmore ih =>
    have hposition := Position.after_start (before ++ ws)
    rw [List.append_assoc, List.append_assoc, scanFrom_blanks hws, ← Position.after_append,
      scanFrom_spelled hspelled, ← Position.after_append, ih, hposition]
    simp only [List.append_assoc]
    cases scanFrom (Position.start.after (before ++ (ws ++ (s ++ more)))) rest <;> rfl

theorem layout_of_scanFrom (h : scanFrom (Position.start.after before) cs = .ok ts) :
    Layout [] before cs ts := by
  generalize hp : Position.start.after before = p at h
  fun_induction scanFrom p cs generalizing before ts with
  | case1 p =>
    cases h
    exact .blank (List.forall_mem_nil _)
  | case2 p c cs hblank ih =>
    have hnext : Position.start.after (before ++ [c]) = p.next c := by
      rw [Position.after_append, hp]
      rfl
    exact .blank_cons hblank (ih hnext h)
  | case3 p c cs hblank text hread => cases h
  | case4 p c cs hblank x k hread ih =>
    cases hrest : scanFrom (p.after (c :: cs.take k)) (cs.drop k) with
    | error e =>
      rw [hrest] at h
      cases h
    | ok rest =>
      rw [hrest] at h
      cases h
      have hnext : Position.start.after (before ++ c :: cs.take k) = p.after (c :: cs.take k) := by
        rw [Position.after_append, hp]
      have hspelled := Lexeme.spelled_of_read hread
      rw [← List.append_nil (cs.drop k)] at hspelled
      have hlayout := Layout.spelled_cons hspelled (ih hnext hrest)
      rw [Position.after_start] at hp
      subst hp
      rwa [List.cons_append, List.take_append_drop] at hlayout

theorem offends_of_scanFrom (h : scanFrom (Position.start.after before) cs = .error fault) :
    ∃ text culprit more ts, cs = text ++ (culprit ++ more) ∧ Layout (culprit ++ more) before text ts ∧
      Offends culprit more ∧
      fault = .unexpectedCharacter (lineAt (before ++ text)) (colAt (before ++ text))
        (Text.quote (String.ofList culprit)) := by
  generalize hp : Position.start.after before = p at h
  fun_induction scanFrom p cs generalizing before with
  | case1 p => cases h
  | case2 p c cs hblank ih =>
    have hnext : Position.start.after (before ++ [c]) = p.next c := by
      rw [Position.after_append, hp]
      rfl
    obtain ⟨text, culprit, more, ts, rfl, hlayout, hoffends, rfl⟩ := ih hnext h
    refine ⟨c :: text, culprit, more, ts, rfl, .blank_cons hblank hlayout, hoffends, ?_⟩
    rw [List.append_assoc]
    rfl
  | case3 p c cs hblank text hread =>
    obtain ⟨s, more, rfl, hoffends, rfl⟩ :=
      Lexeme.offends_of_read (Bool.eq_false_iff.mpr hblank) hread
    cases h
    refine ⟨[], c :: s, more, [], rfl, .blank (List.forall_mem_nil _), hoffends, ?_⟩
    rw [Position.after_start] at hp
    rw [List.append_nil, ← hp]
  | case4 p c cs hblank x k hread ih =>
    cases hrest : scanFrom (p.after (c :: cs.take k)) (cs.drop k) with
    | ok rest =>
      rw [hrest] at h
      cases h
    | error e =>
      rw [hrest] at h
      cases h
      have hnext : Position.start.after (before ++ c :: cs.take k) = p.after (c :: cs.take k) := by
        rw [Position.after_append, hp]
      obtain ⟨text, culprit, more, ts, hdrop, hlayout, hoffends, rfl⟩ := ih hnext hrest
      have hspelled := Lexeme.spelled_of_read hread
      rw [hdrop] at hspelled
      refine ⟨_, culprit, more, _, ?_, .spelled_cons hspelled hlayout, hoffends, ?_⟩
      · rw [List.cons_append, List.cons_append, List.append_assoc, ← hdrop, List.take_append_drop]
      · rw [List.append_assoc]

end Reading

/-- The tokens of a text are those that its characters spell, each at its place, and a text without tokens
fails at the first characters that offend. -/
theorem scan_layout (source : String) :
    (∀ tokens, scan source = .ok tokens ↔ Layout [] [] source.toList tokens) ∧
      ∀ fault, scan source = .error fault ↔
        ∃ before culprit more tokens, source.toList = before ++ (culprit ++ more) ∧
          Layout (culprit ++ more) [] before tokens ∧ Offends culprit more ∧
          fault = .unexpectedCharacter (lineAt before) (colAt before)
            (Text.quote (String.ofList culprit)) := by
  have hstart : scan source = scanFrom (Position.start.after []) source.toList := rfl
  rw [hstart]
  refine ⟨fun tokens => ⟨layout_of_scanFrom, fun h => ?_⟩, fun fault => ⟨offends_of_scanFrom, ?_⟩⟩
  · have hscan := scanFrom_of_layout h
    rw [List.append_nil, scanFrom_nil] at hscan
    calc scanFrom (Position.start.after []) source.toList = (Except.ok []).map (tokens ++ ·) := hscan
      _ = .ok tokens := congrArg Except.ok (List.append_nil tokens)
  · rintro ⟨before, culprit, more, tokens, hsource, hlayout, hoffends, rfl⟩
    have hscan := scanFrom_of_layout hlayout
    rw [scanFrom_offends hoffends, List.nil_append, Position.after_start before] at hscan
    rw [hsource]
    exact hscan

end PocketBasic
