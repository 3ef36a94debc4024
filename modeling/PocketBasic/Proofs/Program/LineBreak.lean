import Mathlib
import PocketBasic.Proofs.Program.FollowingStatement
import PocketBasic.Proofs.Program.Labels

/-!
# Two texts with a line break between them

A text that is accepted and closes its strings can be put before any other text, on lines of its own. The
statements of both follow each other, the labels of the second move up by the number of statements before
them, and what is wrong with the second text is still wrong, as many lines further down.
-/

namespace PocketBasic

section Statements

variable {k m : Nat} {ts us : List Token} {sts : List Statement}

theorem statements_shift (hm : us.length ≤ m) (line : Nat) :
    (Reader.statements m ⟨line, us.map (Token.shift k)⟩).map Prod.fst =
      ((readStatements us).map (List.map (Statement.shift k))).mapError (Fault.shift k) := by
  have hextend : Cursor.extend k [] ⟨0, us⟩ = ⟨0 + k, us.map (Token.shift k)⟩ := by
    rw [Cursor.extend, List.append_nil]
  rw [Reader.statements_line m line (0 + k), ← hextend, readStatements]
  cases h : Reader.statements us.length ⟨0, us⟩ with
  | error e =>
    rw [Reader.statements_shift_error k (Nat.le_refl _) hm h]
    rfl
  | ok q =>
    obtain ⟨sts, c⟩ := q
    obtain ⟨m', line', -, hread⟩ :=
      Reader.statements_extend (c := ⟨0, us⟩) (Nat.le_refl _) hm (Cursor.apart_nil k _) h
    rw [hread, Reader.statements_nil]
    change Except.ok (sts.map (Statement.shift k) ++ []) = _
    rw [List.append_nil]
    rfl

/-- Tokens on earlier lines do not change how the tokens behind them are read. -/
theorem readStatements_append (h : readStatements ts = .ok sts)
    (hlines : ∀ u ∈ us, 0 < u.line + k ∧ ∀ t ∈ ts, t.line < u.line + k) :
    readStatements (ts ++ us.map (Token.shift k)) =
      (((readStatements us).map (List.map (Statement.shift k))).mapError (Fault.shift k)).map
        (sts ++ ·) := by
  have hapart : Cursor.Apart 0 (us.map (Token.shift k)) ⟨0, ts⟩ := by
    intro u hu
    obtain ⟨v, hv, rfl⟩ := List.mem_map.mp (List.mem_of_mem_head? hu)
    obtain ⟨hpos, hlt⟩ := hlines v hv
    exact ⟨Nat.ne_of_lt hpos, fun t ht => Nat.ne_of_lt (hlt t ht)⟩
  have hextend : Cursor.extend 0 (us.map (Token.shift k)) ⟨0, ts⟩ =
      ⟨0, ts ++ us.map (Token.shift k)⟩ := by
    rw [Cursor.extend, Token.map_shift_zero]
  cases hread : Reader.statements ts.length ⟨0, ts⟩ with
  | error e =>
    rw [readStatements, hread] at h
    cases h
  | ok q =>
    obtain ⟨sts', c⟩ := q
    rw [readStatements, hread] at h
    cases h
    obtain ⟨m, line, hm, heq⟩ := Reader.statements_extend (m := (ts ++ us.map (Token.shift k)).length)
      (Nat.le_refl _) (Nat.le_of_eq List.length_append.symm) hapart hread
    rw [hextend, Statement.map_shift_zero] at heq
    rw [List.length_map] at hm
    rw [← statements_shift hm line, readStatements, heq]
    cases Reader.statements m ⟨line, us.map (Token.shift k)⟩ <;> rfl

end Statements

section Labels

theorem declaredLabels_append (i : Nat) (sts more : List Statement) :
    declaredLabels i (sts ++ more) = declaredLabels i sts ++ declaredLabels (i + sts.length) more := by
  induction sts generalizing i with
  | nil => rfl
  | cons s sts ih =>
    have hlen : i + (s :: sts).length = i + 1 + sts.length := by
      rw [List.length_cons]
      omega
    rw [hlen]
    cases hd : s.command.declared? with
    | none => simp only [List.cons_append, declaredLabels, hd, ih]
    | some name => simp only [List.cons_append, declaredLabels, hd, ih]

theorem declaredLabels_shift (k j i : Nat) (sts : List Statement) :
    declaredLabels (i + j) (sts.map (Statement.shift k)) =
      (declaredLabels i sts).map fun entry => (entry.1, entry.2 + j) := by
  induction sts generalizing i with
  | nil => rfl
  | cons s sts ih =>
    have hdeclared : (s.shift k).command.declared? = s.command.declared? := by
      obtain ⟨line, c⟩ := s
      cases c <;> rfl
    have hrest := ih (i + 1)
    rw [Nat.add_right_comm] at hrest
    cases hd : s.command.declared? with
    | none => simp only [List.map_cons, declaredLabels, hdeclared, hd, hrest]
    | some name => simp only [List.map_cons, declaredLabels, hdeclared, hd, hrest]

theorem category_of_collect {t : LabelTable} {i : Nat} {sts : List Statement} {fault : Fault}
    (h : LabelTable.collect t i sts = .error fault) : fault.category = "LOAD ERROR" := by
  induction sts generalizing t i with
  | nil => cases h
  | cons s sts ih =>
    cases hd : s.command.declared? with
    | none =>
      rw [collect_cons_other t i s sts hd] at h
      exact ih h
    | some name =>
      rw [collect_cons_label t i s sts hd] at h
      split at h
      · cases h
        rfl
      · exact ih h

theorem category_of_ofStatements {sts : List Statement} {fault : Fault}
    (h : Program.ofStatements sts = .error fault) : fault.category = "LOAD ERROR" := by
  unfold Program.ofStatements at h
  cases hcollect : LabelTable.collect [] 0 sts with
  | error e =>
    rw [hcollect] at h
    cases h
    exact category_of_collect hcollect
  | ok t =>
    rw [hcollect] at h
    cases h

/-- A program with another one behind it, whose text starts `k` lines further down. -/
def Program.append (p : Program) (k : Nat) (p' : Program) : Program where
  statements := p.statements ++ p'.statements.map (Statement.shift k)
  labels := p.labels ++ p'.labels.map fun entry => (entry.1, entry.2 + p.length)

theorem ofStatements_append {sts sts' : List Statement} {p p' : Program} (k : Nat)
    (h : Program.ofStatements sts = .ok p) (h' : Program.ofStatements sts' = .ok p')
    (hdisjoint : ∀ name ∈ p.labels.map Prod.fst, name ∉ p'.labels.map Prod.fst) :
    Program.ofStatements (sts ++ sts'.map (Statement.shift k)) = .ok (p.append k p') := by
  obtain ⟨hnodup, rfl⟩ := (ofStatements_eq_ok_iff sts p).mp h
  obtain ⟨hnodup', rfl⟩ := (ofStatements_eq_ok_iff sts' p').mp h'
  have hlabels : declaredLabels 0 (sts ++ sts'.map (Statement.shift k)) =
      declaredLabels 0 sts ++
        (declaredLabels 0 sts').map fun entry => (entry.1, entry.2 + sts.length) := by
    rw [declaredLabels_append, declaredLabels_shift k sts.length 0]
  have hnames : ((declaredLabels 0 sts').map fun entry => (entry.1, entry.2 + sts.length)).map
      Prod.fst = (declaredLabels 0 sts').map Prod.fst := by
    rw [List.map_map]
    rfl
  rw [ofStatements_eq_ok_iff, hlabels, List.map_append, hnames, List.nodup_append]
  refine ⟨⟨hnodup, hnodup', ?_⟩, rfl⟩
  rintro name hname name' hname' rfl
  exact hdisjoint name hname hname'

end Labels

section Texts

variable {source : String} {tokens : List Token} {sts : List Statement} {p : Program}

theorem parts_of_compile (h : Program.compile source = .ok p) :
    ∃ tokens sts, scan source = .ok tokens ∧ readStatements tokens = .ok sts ∧
      Program.ofStatements sts = .ok p := by
  unfold Program.compile at h
  cases hscan : scan source with
  | error e =>
    rw [hscan] at h
    cases h
  | ok tokens =>
    rw [hscan] at h
    change (readStatements tokens).bind Program.ofStatements = .ok p at h
    cases hread : readStatements tokens with
    | error e =>
      rw [hread] at h
      cases h
    | ok sts =>
      rw [hread] at h
      exact ⟨tokens, sts, rfl, hread, h⟩

theorem scan_append (h : scan source = .ok tokens) (hquotes : source.toList.count '"' % 2 = 0)
    (source' : String) :
    scan (source ++ "\n" ++ source') =
      (((scan source').map (List.map (Token.shift (1 + source.toList.count '\n')))).mapError
        (Fault.shift (1 + source.toList.count '\n'))).map (tokens ++ ·) := by
  have htext : (source ++ "\n" ++ source').toList = source.toList ++ '\n' :: source'.toList := by
    simp
  have hplace : (⟨(Position.start.after source.toList).line + 1, 1⟩ : Position) =
      Position.start.shift (1 + source.toList.count '\n') := by
    rw [Position.line_after, Position.shift]
    simp only [Position.start, Position.mk.injEq, and_true]
    omega
  unfold scan at h ⊢
  rw [htext, scanFrom_append_break h hquotes, hplace, scanFrom_shift]

theorem lines_of_scan {source' : String} {us : List Token} (h : scan source = .ok tokens)
    (h' : scan source' = .ok us) : ∀ u ∈ us, 0 < u.line + (1 + source.toList.count '\n') ∧
      ∀ t ∈ tokens, t.line < u.line + (1 + source.toList.count '\n') := by
  intro u hu
  have hfirst : Position.start.line ≤ u.line := (lines_of_scanFrom h' u hu).1
  refine ⟨by omega, fun t ht => ?_⟩
  have hlast := (lines_of_scanFrom h t ht).2
  rw [Position.line_after] at hlast
  omega

/-- A text behind an accepted one is compiled as if it stood alone, up to the check of the labels. -/
theorem compile_append_eq (hscan : scan source = .ok tokens) (hread : readStatements tokens = .ok sts)
    (hquotes : source.toList.count '"' % 2 = 0) (source' : String) :
    Program.compile (source ++ "\n" ++ source') =
      ((((scan source').bind readStatements).map
        (List.map (Statement.shift (1 + source.toList.count '\n')))).mapError
        (Fault.shift (1 + source.toList.count '\n'))).bind
          fun more => Program.ofStatements (sts ++ more) := by
  unfold Program.compile
  rw [scan_append hscan hquotes]
  cases hscan' : scan source' with
  | error e => rfl
  | ok us =>
    have hall := readStatements_append hread (lines_of_scan hscan hscan')
    change (readStatements _).bind Program.ofStatements = _
    rw [hall]
    change _ = (((readStatements us).map _).mapError _).bind _
    cases readStatements us <;> rfl

end Texts

/-- Compilation goes on at a line break as at the start of a text. Behind an accepted text whose strings
are closed, a text with a lexical or syntax error has the same error, further down, and an accepted text
with other labels is accepted. -/
theorem compile_append {source : String} {p : Program} (h : Program.compile source = .ok p)
    (hquotes : source.toList.count '"' % 2 = 0) (source' : String) :
    (∀ fault, Program.compile source' = .error fault →
      fault.category = "LEXICAL ERROR" ∨ fault.category = "SYNTAX ERROR" →
      Program.compile (source ++ "\n" ++ source') =
        .error (fault.shift (1 + source.toList.count '\n'))) ∧
    (∀ p', Program.compile source' = .ok p' →
      (∀ name ∈ p.labels.map Prod.fst, name ∉ p'.labels.map Prod.fst) →
      Program.compile (source ++ "\n" ++ source') =
        .ok (p.append (1 + source.toList.count '\n') p')) := by
  obtain ⟨tokens, sts, hscan, hread, hlabels⟩ := parts_of_compile h
  rw [compile_append_eq hscan hread hquotes]
  have hcompile : Program.compile source' =
      ((scan source').bind readStatements).bind Program.ofStatements := by
    unfold Program.compile
    cases scan source' <;> rfl
  rw [hcompile]
  cases (scan source').bind readStatements with
  | error e =>
    refine ⟨fun fault hfault _ => ?_, fun p' hp' => by cases hp'⟩
    cases hfault
    rfl
  | ok sts' =>
    refine ⟨fun fault hfault hcategory => ?_, fun p' hp' hdisjoint => ?_⟩
    · -- The labels are checked last, and they have no fault of this kind.
      have hload := category_of_ofStatements hfault
      rw [hload] at hcategory
      exact absurd hcategory (by decide)
    · exact ofStatements_append _ hlabels hp' hdisjoint

def banner : String := "Lbl A\nDisp \"X\""

theorem compile_banner : Program.compile banner =
    .ok ⟨[⟨1, .label "A"⟩, ⟨2, .disp [.text 2 "X"]⟩], [("A", 0)]⟩ := by
  cbv

/-- Behind two lines, a jump to a label on the first of them, and a jump that names no label. -/
theorem compile_append_banner :
    Program.compile (banner ++ "\n" ++ "Lbl B\nGoto A") =
        .ok ⟨[⟨1, .label "A"⟩, ⟨2, .disp [.text 2 "X"]⟩, ⟨3, .label "B"⟩, ⟨4, .goto "A"⟩],
          [("A", 0), ("B", 2)]⟩ ∧
      Program.compile (banner ++ "\n" ++ "Goto (") =
        .error (.unexpectedToken 3 6 "label name" "Paren(()") := by
  have hquotes : banner.toList.count '"' % 2 = 0 := by decide
  have hother : Program.compile "Lbl B\nGoto A" =
      .ok ⟨[⟨1, .label "B"⟩, ⟨2, .goto "A"⟩], [("B", 0)]⟩ := by
    cbv
  have hwrong : Program.compile "Goto (" =
      .error (.unexpectedToken 1 6 "label name" "Paren(()") := by
    cbv
  exact ⟨(compile_append compile_banner hquotes _).2 _ hother (by decide),
    (compile_append compile_banner hquotes _).1 _ hwrong (by decide)⟩

end PocketBasic
