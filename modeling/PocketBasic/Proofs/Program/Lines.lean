import PocketBasic.Program.Scan
import PocketBasic.Program.Statement

/-!
# Texts moved down by some lines

`shift k` adds `k` to every line that is noted in a token, an expression, a statement or a fault. A text
that starts `k` lines further down has the same tokens, shifted. A text whose strings are closed ends at a
line break: what stands behind the break is read as if it stood alone, on later lines.
-/

namespace PocketBasic

def Token.shift (k : Nat) (t : Token) : Token := { t with line := t.line + k }

mutual

def Expr.shift (k : Nat) : Expr → Expr
  | .number line value => .number (line + k) value
  | .text line value => .text (line + k) value
  | .name line id => .name (line + k) id
  | .binary line op left right => .binary (line + k) op (left.shift k) (right.shift k)
  | .assign line value targetLine target => .assign (line + k) (value.shift k) (targetLine + k) target
  | .call line function args => .call (line + k) (function.shift k) (Expr.shiftList k args)

def Expr.shiftList (k : Nat) : List Expr → List Expr
  | [] => []
  | x :: xs => x.shift k :: Expr.shiftList k xs

end

def MenuOption.shift (k : Nat) (o : MenuOption) : MenuOption := { o with text := o.text.shift k }

def Command.shift (k : Nat) : Command → Command
  | .compute x => .compute (x.shift k)
  | .whileLoop cond => .whileLoop (cond.shift k)
  | .repeatLoop cond => .repeatLoop (cond.shift k)
  | .forLoop var start stop step => .forLoop var (start.shift k) (stop.shift k) (step.shift k)
  | .ifTest cond => .ifTest (cond.shift k)
  | .disp args => .disp (Expr.shiftList k args)
  | .output row col value => .output (row.shift k) (col.shift k) (value.shift k)
  | .input question var => .input (question.map (Expr.shift k)) var
  | .pause value => .pause (value.map (Expr.shift k))
  | .menu title options => .menu (title.shift k) (options.map (MenuOption.shift k))
  | c => c

def Statement.shift (k : Nat) (s : Statement) : Statement := ⟨s.line + k, s.command.shift k⟩

def Fault.shift (k : Nat) : Fault → Fault
  | .unexpectedCharacter line col quoted => .unexpectedCharacter (line + k) col quoted
  | .unexpectedToken line col expected found => .unexpectedToken (line + k) col expected found
  | .unexpectedEnd line expected => .unexpectedEnd (line + k) expected
  | .duplicateLabel line label => .duplicateLabel (line + k) label
  | .undefinedLabel line label => .undefinedLabel (line + k) label
  | .unbalancedEnd line => .unbalancedEnd (line + k)
  | .menuSelection line => .menuSelection (line + k)
  | .unsupported line program => .unsupported (line + k) program

section Zero

mutual

theorem Expr.shift_zero : (x : Expr) → x.shift 0 = x
  | .number .. | .text .. | .name .. => rfl
  | .binary line op left right => by
    rw [Expr.shift, Expr.shift_zero left, Expr.shift_zero right, Nat.add_zero]
  | .assign line value targetLine target => by
    rw [Expr.shift, Expr.shift_zero value, Nat.add_zero, Nat.add_zero]
  | .call line function args => by
    rw [Expr.shift, Expr.shift_zero function, Expr.shiftList_zero args, Nat.add_zero]

theorem Expr.shiftList_zero : (xs : List Expr) → Expr.shiftList 0 xs = xs
  | [] => rfl
  | x :: xs => by
    rw [Expr.shiftList, Expr.shift_zero x, Expr.shiftList_zero xs]

end

theorem Command.shift_zero (c : Command) : c.shift 0 = c := by
  have hmap (o : Option Expr) : o.map (Expr.shift 0) = o := by
    cases o with
    | none => rfl
    | some x => rw [Option.map_some, Expr.shift_zero]
  have hoptions (options : List MenuOption) : options.map (MenuOption.shift 0) = options := by
    refine (List.map_congr_left fun o _ => ?_).trans (List.map_id options)
    rw [MenuOption.shift, Expr.shift_zero]
    rfl
  cases c <;> simp only [Command.shift, Expr.shift_zero, Expr.shiftList_zero, hmap, hoptions]

theorem Statement.map_shift_zero (sts : List Statement) : sts.map (Statement.shift 0) = sts := by
  refine (List.map_congr_left fun s _ => ?_).trans (List.map_id sts)
  rw [Statement.shift, Command.shift_zero]
  rfl

theorem Token.map_shift_zero (ts : List Token) : ts.map (Token.shift 0) = ts :=
  (List.map_congr_left fun _ _ => rfl).trans (List.map_id ts)

end Zero

section Positions

def Position.shift (k : Nat) (p : Position) : Position := { p with line := p.line + k }

theorem Position.next_shift (k : Nat) (p : Position) (c : Char) :
    (p.shift k).next c = (p.next c).shift k := by
  unfold next
  split
  · simp only [shift, Nat.add_right_comm]
  · rfl

theorem Position.after_shift (k : Nat) (p : Position) (cs : List Char) :
    (p.shift k).after cs = (p.after cs).shift k := by
  induction cs generalizing p with
  | nil => rfl
  | cons c cs ih =>
    change ((p.shift k).next c).after cs = _
    rw [next_shift, ih]
    rfl

theorem Position.line_after (p : Position) (cs : List Char) :
    (p.after cs).line = p.line + cs.count '\n' := by
  induction cs generalizing p with
  | nil => rfl
  | cons c cs ih =>
    change ((p.next c).after cs).line = _
    rw [ih, List.count_cons]
    unfold next
    split
    · next hc =>
      simp only [hc, beq_self_eq_true, if_true]
      omega
    · next hc => simp [hc]

theorem Position.after_append (p : Position) (cs ds : List Char) :
    p.after (cs ++ ds) = (p.after cs).after ds :=
  List.foldl_append

end Positions

theorem scanFrom_nil (p : Position) : scanFrom p [] = .ok [] :=
  scanFrom.eq_def p []

theorem scanFrom_cons (p : Position) (c : Char) (cs : List Char) :
    scanFrom p (c :: cs) =
      if Text.isBlank c then scanFrom (p.next c) cs
      else match Lexeme.read c cs with
        | .error text => .error (.unexpectedCharacter p.line p.col (Text.quote text))
        | .ok (x, k) =>
          (scanFrom (p.after (c :: cs.take k)) (cs.drop k)).map (⟨x, p.line, p.col⟩ :: ·) :=
  scanFrom.eq_def p (c :: cs)

theorem scanFrom_shift (k : Nat) (p : Position) (cs : List Char) :
    scanFrom (p.shift k) cs =
      ((scanFrom p cs).map (List.map (Token.shift k))).mapError (Fault.shift k) := by
  fun_induction scanFrom p cs with
  | case1 p =>
    rw [scanFrom_nil]
    rfl
  | case2 p c cs hblank ih => rw [scanFrom_cons, if_pos hblank, Position.next_shift, ih]
  | case3 p c cs hblank text hread =>
    rw [scanFrom_cons, if_neg hblank, hread]
    rfl
  | case4 p c cs hblank x j hread ih =>
    rw [scanFrom_cons, if_neg hblank, hread]
    simp only
    rw [Position.after_shift, ih]
    cases scanFrom (p.after (c :: cs.take j)) (cs.drop j) <;> rfl

/-- The tokens of a text stand between its first line and its last. -/
theorem lines_of_scanFrom {p : Position} {cs : List Char} {ts : List Token}
    (h : scanFrom p cs = .ok ts) : ∀ t ∈ ts, p.line ≤ t.line ∧ t.line ≤ (p.after cs).line := by
  fun_induction scanFrom p cs generalizing ts with
  | case1 p =>
    cases h
    simp
  | case2 p c cs hblank ih =>
    intro t ht
    obtain ⟨hlo, hhi⟩ := ih h t ht
    refine ⟨Nat.le_trans ?_ hlo, hhi⟩
    have hline := Position.line_after p [c]
    exact Nat.le.intro hline.symm
  | case3 p c cs hblank text hread => cases h
  | case4 p c cs hblank x j hread ih =>
    have hsplit : (p.after (c :: cs.take j)).after (cs.drop j) = p.after (c :: cs) := by
      rw [← Position.after_append, List.cons_append, List.take_append_drop]
    cases hrest : scanFrom (p.after (c :: cs.take j)) (cs.drop j) with
    | error e =>
      rw [hrest] at h
      cases h
    | ok rest =>
      rw [hrest] at h
      cases h
      intro t ht
      rcases List.mem_cons.mp ht with rfl | ht
      · exact ⟨Nat.le_refl _, Nat.le.intro (Position.line_after p (c :: cs)).symm⟩
      · obtain ⟨hlo, hhi⟩ := ih hrest t ht
        rw [hsplit] at hhi
        have hline := Position.line_after p (c :: cs.take j)
        exact ⟨by omega, hhi⟩

section Breaks

theorem takeWhile_append_stop {α : Type} {f : α → Bool} {x : α} (hx : f x = false) (xs ys : List α) :
    (xs ++ x :: ys).takeWhile f = xs.takeWhile f := by
  induction xs with
  | nil => simp [hx]
  | cons y xs ih => simp only [List.cons_append, List.takeWhile_cons, ih]

theorem takeWhile_append_of_mem {α : Type} {f : α → Bool} {x : α} (hx : f x = false) {xs : List α}
    (hmem : x ∈ xs) (ys : List α) :
    (xs ++ ys).takeWhile f = xs.takeWhile f ∧ (xs.takeWhile f).length < xs.length := by
  obtain ⟨before, behind, rfl⟩ := List.append_of_mem hmem
  have hstop (zs : List α) : (before ++ x :: zs).takeWhile f = before.takeWhile f :=
    takeWhile_append_stop hx before zs
  rw [List.append_assoc, List.cons_append, hstop, hstop, List.length_append, List.length_cons]
  have hle : (before.takeWhile f).length ≤ before.length := ( List.takeWhile_prefix f).length_le
  exact ⟨rfl, by omega⟩

theorem count_take_string {cs : List Char} (hmem : '"' ∈ cs) :
    (cs.take ((cs.takeWhile (· ≠ '"')).length + 1)).count '"' = 1 := by
  induction cs with
  | nil => cases hmem
  | cons c cs ih =>
    by_cases hc : c = '"'
    · simp [hc]
    · have hmem' : '"' ∈ cs := (List.mem_cons.mp hmem).resolve_left (Ne.symm hc)
      have htake : (c :: cs).takeWhile (· ≠ '"') = c :: cs.takeWhile (· ≠ '"') := by simp [hc]
      rw [htake, List.length_cons, List.take_succ_cons, List.count_cons_of_ne hc]
      exact ih hmem'

namespace Lexeme

variable {c : Char} {cs : List Char} {x : Lexeme} {j : Nat}

/-- A lexeme does not reach past a line break, unless it is a string that is still open there. -/
theorem read_append_break (hclosed : c = '"' → '"' ∈ cs) (more : List Char) :
    read c (cs ++ '\n' :: more) = read c cs := by
  unfold read
  by_cases hword : isWordChar c = true
  · rw [if_pos hword, if_pos hword, takeWhile_append_stop (by decide)]
  · rw [if_neg hword, if_neg hword]
    have hhead (d : Char) (hd : '\n' ≠ d) :
        (cs ++ '\n' :: more).head? = some d ↔ cs.head? = some d := by
      cases cs with
      | nil => simp [hd]
      | cons e es => rfl
    split
    · obtain ⟨hbody, hlt⟩ := takeWhile_append_of_mem (f := (· ≠ '"')) (by decide) (hclosed rfl)
        ('\n' :: more)
      have hlt' : (cs.takeWhile (· ≠ '"')).length < (cs ++ '\n' :: more).length := by
        rw [List.length_append]
        omega
      simp only [hbody, if_pos hlt, if_pos hlt']
    all_goals first
      | rfl
      | simp only [hhead '>' (by decide), hhead '=' (by decide)]

theorem quotes_of_word (hword : isWordChar c = true) (h : read c cs = .ok (x, j)) :
    j ≤ cs.length ∧ '"' ∉ cs.take j := by
  have hj : j = (cs.takeWhile isWordChar).length := by
    simp only [read, if_pos hword] at h
    cases hof : ofWord (c :: cs.takeWhile isWordChar) with
    | error e =>
      rw [hof] at h
      cases h
    | ok y =>
      rw [hof] at h
      cases h
      rfl
  have hstart : cs.takeWhile isWordChar <+: cs := List.takeWhile_prefix isWordChar
  rw [hj, ← List.prefix_iff_eq_take.mp hstart]
  refine ⟨hstart.length_le, fun hmem => ?_⟩
  have hall := List.all_eq_true.mp (List.all_takeWhile (l := cs) (p := isWordChar)) '"' hmem
  exact absurd hall (by decide)

theorem quotes_of_string (h : read '"' cs = .ok (x, j)) :
    j ≤ cs.length ∧ ('"' ∈ cs → (cs.take j).count '"' = 1) := by
  cases h
  have hle : (cs.takeWhile (· ≠ '"')).length ≤ cs.length :=
    ( List.takeWhile_prefix (· ≠ '"')).length_le
  refine ⟨?_, fun hmem => ?_⟩
  · split <;> omega
  · have hlt := (takeWhile_append_of_mem (f := (· ≠ '"')) (by decide) hmem []).2
    rw [if_pos hlt]
    exact count_take_string hmem

/-- A sign is one character, or two if the second is the one that belongs to it. -/
theorem quotes_of_sign (hword : isWordChar c = false) (hc : c ≠ '"') (h : read c cs = .ok (x, j)) :
    j ≤ cs.length ∧ '"' ∉ cs.take j := by
  have hpair {d : Char} {y z : Lexeme} (hd : '"' ≠ d)
      (h : (if cs.head? = some d then (y, 1) else (z, 0)) = (x, j)) :
      j ≤ cs.length ∧ '"' ∉ cs.take j := by
    split at h
    · next hhead =>
      cases h
      obtain ⟨rest, rfl⟩ := List.head?_eq_some_iff.mp hhead
      simp [hd]
    · cases h
      simp
  unfold read at h
  rw [if_neg (by simp [hword])] at h
  split at h
  · exact absurd rfl hc
  all_goals first
    | exact hpair (by decide) (Except.ok.inj h)
    | cases h <;> simp

/-- The characters of a lexeme after its first are there, and there is a quote among them only if it
closes a string. -/
theorem quotes_of_read (h : read c cs = .ok (x, j)) :
    j ≤ cs.length ∧ (c ≠ '"' → '"' ∉ cs.take j) ∧
      (c = '"' → '"' ∈ cs → (cs.take j).count '"' = 1) := by
  by_cases hc : c = '"'
  · subst hc
    obtain ⟨hle, hone⟩ := quotes_of_string h
    exact ⟨hle, fun hne => absurd rfl hne, fun _ => hone⟩
  · have hnone : j ≤ cs.length ∧ '"' ∉ cs.take j := by
      cases hword : isWordChar c with
      | true => exact quotes_of_word hword h
      | false => exact quotes_of_sign hword hc h
    exact ⟨hnone.1, fun _ => hnone.2, fun hc' => absurd hc' hc⟩

end Lexeme

/-- Behind a line break outside of strings the text is read as if it started there. -/
theorem scanFrom_append_break {p : Position} {cs : List Char} {ts : List Token}
    (h : scanFrom p cs = .ok ts) (hquotes : cs.count '"' % 2 = 0) (more : List Char) :
    scanFrom p (cs ++ '\n' :: more) =
      (scanFrom ⟨(p.after cs).line + 1, 1⟩ more).map (ts ++ ·) := by
  fun_induction scanFrom p cs generalizing ts with
  | case1 p =>
    cases h
    have hblank : Text.isBlank '\n' = true := by decide
    rw [List.nil_append, scanFrom_cons, if_pos hblank]
    change scanFrom ⟨p.line + 1, 1⟩ more = (scanFrom ⟨p.line + 1, 1⟩ more).map id
    cases scanFrom ⟨p.line + 1, 1⟩ more <;> rfl
  | case2 p c cs hblank ih =>
    have hc : c ≠ '"' := by
      rintro rfl
      exact absurd hblank (by decide)
    rw [List.cons_append, scanFrom_cons, if_pos hblank]
    exact ih h (by rwa [List.count_cons_of_ne hc] at hquotes)
  | case3 p c cs hblank text hread => cases h
  | case4 p c cs hblank x j hread ih =>
    obtain ⟨hle, hother, hstring⟩ := Lexeme.quotes_of_read hread
    have hsplit : cs.count '"' = (cs.take j).count '"' + (cs.drop j).count '"' := by
      rw [← List.count_append, List.take_append_drop]
    have hrest : (c = '"' → '"' ∈ cs) ∧ (cs.drop j).count '"' % 2 = 0 := by
      by_cases hc : c = '"'
      · -- Behind an opening quote an odd number of quotes is left, so one of them closes the string.
        rw [hc, List.count_cons_self] at hquotes
        have hmem : '"' ∈ cs := List.count_pos_iff.mp (by omega)
        have hone := hstring hc hmem
        exact ⟨fun _ => hmem, by omega⟩
      · rw [List.count_cons_of_ne hc] at hquotes
        have hnone := List.count_eq_zero.mpr (hother hc)
        exact ⟨fun hc' => absurd hc' hc, by omega⟩
    have hread' := (Lexeme.read_append_break hrest.1 more).trans hread
    rw [List.cons_append, scanFrom_cons, if_neg hblank, hread']
    simp only [List.take_append_of_le_length hle, List.drop_append_of_le_length hle]
    cases htail : scanFrom (p.after (c :: cs.take j)) (cs.drop j) with
    | error e =>
      rw [htail] at h
      cases h
    | ok rest =>
      rw [htail] at h
      cases h
      rw [ih htail hrest.2, ← Position.after_append, List.cons_append, List.take_append_drop]
      cases scanFrom ⟨(p.after (c :: cs)).line + 1, 1⟩ more <;> rfl

end Breaks

end PocketBasic
