import PocketBasic.Proofs.Program.ArrowsStatement
import PocketBasic.Proofs.Program.Layout

/-!
# What is compiled and what is refused

An accepted program is dependable: what the machine takes for granted of its assignments, prompts, loops and
labels is so. A text that can be read is refused only for a label that is declared twice, and the fault names
the first one that repeats another. Every fault is of the phase that stops, and on a line of the text.
-/

namespace PocketBasic

/-- What the machine takes for granted of a program that is read from the tokens. -/
structure Program.Dependable (p : Program) (tokens : List Token) : Prop where
  /-- Each arrow is an assignment of the program. -/
  arrows : p.assignments.length = PocketBasic.arrows tokens
  target : ∀ a ∈ p.assignments, ∃ line id, a.2 = .name line id
  prompt : ∀ s ∈ p.statements, ∀ vars, s.command = .prompt vars → vars ≠ []
  /-- The start, the end and the step of a loop are there, and only the step can be missing in the text. -/
  loop : ∀ s ∈ p.statements, ∀ var start stop step, s.command = .forLoop var start stop step →
    Reader.Met tokens start ∧ Reader.Met tokens stop ∧ Reader.Met tokens step
  label : ∀ name i, p.labels.find? name = some i ↔ ∃ line, p.statements[i]? = some ⟨line, .label name⟩

/-- The statement at position `j` declares a label that a statement before it declares. -/
def RepeatsLabel (sts : List Statement) (j : Nat) : Prop :=
  ∃ i name line line', i < j ∧ sts[i]? = some ⟨line, .label name⟩ ∧ sts[j]? = some ⟨line', .label name⟩

/-- The phase that stops, and the category of the fault. -/
inductive StopsWith (source : String) (fault : Fault) : Prop
  | scanning (h : scan source = .error fault) (hcategory : fault.category = "LEXICAL ERROR")
  | reading {tokens : List Token} (hscan : scan source = .ok tokens)
      (h : readStatements tokens = .error fault) (hcategory : fault.category = "SYNTAX ERROR")
  | labelling {tokens : List Token} {sts : List Statement} (hscan : scan source = .ok tokens)
      (hread : readStatements tokens = .ok sts) (h : Program.ofStatements sts = .error fault)
      (hcategory : fault.category = "LOAD ERROR")

section Labels

variable {sts : List Statement} {fault : Fault}

theorem mem_names_iff {name : String} {i : Nat} :
    name ∈ (declaredLabels i sts).map Prod.fst ↔
      ∃ j line : Nat, sts[j]? = some ⟨line, .label name⟩ := by
  simp only [List.mem_map, Prod.exists, mem_declaredLabels]
  constructor
  · rintro ⟨name', k, ⟨j, line, -, hj⟩, rfl⟩
    exact ⟨j, line, hj⟩
  · rintro ⟨j, line, hj⟩
    exact ⟨name, i + j, ⟨j, line, rfl, hj⟩, rfl⟩

theorem not_repeatsLabel_of_nodup (h : ((declaredLabels 0 sts).map Prod.fst).Nodup) (j : Nat) :
    ¬ RepeatsLabel sts j := by
  rintro ⟨i, name, line, line', hij, hi, hj⟩
  have hmi : (name, i) ∈ declaredLabels 0 sts := mem_declaredLabels.mpr ⟨i, line, by omega, hi⟩
  have hmj : (name, j) ∈ declaredLabels 0 sts := mem_declaredLabels.mpr ⟨j, line', by omega, hj⟩
  have heq := List.inj_on_of_nodup_map h hmi hmj rfl
  cases heq
  exact absurd hij (Nat.lt_irrefl _)

theorem collect_eq_error {t : LabelTable} {i : Nat} (ht : (t.map Prod.fst).Nodup)
    (h : LabelTable.collect t i sts = .error fault) :
    ∃ front line name rest, sts = front ++ ⟨line, .label name⟩ :: rest ∧
      fault = .duplicateLabel line name ∧ name ∈ (t ++ declaredLabels i front).map Prod.fst ∧
      ((t ++ declaredLabels i front).map Prod.fst).Nodup := by
  induction sts generalizing t i with
  | nil => cases h
  | cons s sts ih =>
    cases hd : s.command.declared? with
    | none =>
      rw [collect_cons_other t i s sts hd] at h
      obtain ⟨front, line, name, rest, rfl, hfault, hmem, hnodup⟩ := ih ht h
      have hlabels : declaredLabels i (s :: front) = declaredLabels (i + 1) front := by
        simp only [declaredLabels, hd]
      exact ⟨s :: front, line, name, rest, rfl, hfault, hlabels ▸ hmem, hlabels ▸ hnodup⟩
    | some name =>
      rw [collect_cons_label t i s sts hd] at h
      by_cases hmem : name ∈ t.map Prod.fst
      · rw [if_pos ((find?_isSome_iff t name).mpr hmem)] at h
        obtain ⟨line, command⟩ := s
        cases command <;> cases hd
        cases h
        have hnil : t ++ declaredLabels i [] = t := List.append_nil t
        exact ⟨[], line, name, sts, rfl, rfl, hnil.symm ▸ hmem, hnil.symm ▸ ht⟩
      · rw [if_neg fun hfound => hmem ((find?_isSome_iff t name).mp hfound)] at h
        have ht' : ((t ++ [(name, i)]).map Prod.fst).Nodup := by
          rw [List.map_append, List.map_singleton, ← List.concat_eq_append]
          exact ht.concat hmem
        obtain ⟨front, line, name', rest, rfl, hfault, hmem', hnodup⟩ := ih ht' h
        have hlabels : t ++ declaredLabels i (s :: front) =
            t ++ [(name, i)] ++ declaredLabels (i + 1) front := by
          simp only [declaredLabels, hd, List.append_assoc, List.singleton_append]
        exact ⟨s :: front, line, name', rest, rfl, hfault, hlabels ▸ hmem', hlabels ▸ hnodup⟩

/-- The fault of a list of statements is the first label that repeats another. -/
theorem first_of_ofStatements (h : Program.ofStatements sts = .error fault) :
    ∃ j line name, fault = .duplicateLabel line name ∧ sts[j]? = some ⟨line, .label name⟩ ∧
      RepeatsLabel sts j ∧ ∀ i < j, ¬ RepeatsLabel sts i := by
  unfold Program.ofStatements at h
  cases hcollect : LabelTable.collect [] 0 sts with
  | ok t =>
    rw [hcollect] at h
    cases h
  | error e =>
    rw [hcollect] at h
    cases h
    obtain ⟨front, line, name, rest, rfl, rfl, hmem, hnodup⟩ :=
      collect_eq_error (t := []) List.nodup_nil hcollect
    rw [List.nil_append] at hmem hnodup
    have hfront {i : Nat} (hi : i < front.length) :
        (front ++ ⟨line, .label name⟩ :: rest)[i]? = front[i]? := List.getElem?_append_left hi
    have hat : (front ++ ⟨line, .label name⟩ :: rest)[front.length]? = some ⟨line, .label name⟩ := by
      rw [List.getElem?_append_right (Nat.le_refl _), Nat.sub_self]
      rfl
    refine ⟨front.length, line, name, rfl, hat, ?_, ?_⟩
    · obtain ⟨i, line', hi⟩ := mem_names_iff.mp hmem
      have hlt := (List.getElem?_eq_some_iff.mp hi).1
      exact ⟨i, name, line', line, hlt, (hfront hlt).trans hi, hat⟩
    · rintro j hj ⟨i, name', line₁, line₂, hij, hi, hj'⟩
      refine not_repeatsLabel_of_nodup hnodup j ⟨i, name', line₁, line₂, hij, ?_, ?_⟩
      · rwa [hfront (by omega)] at hi
      · rwa [hfront hj] at hj'

theorem ofStatements_eq_error_iff :
    (∃ fault, Program.ofStatements sts = .error fault) ↔ ∃ j, RepeatsLabel sts j := by
  constructor
  · rintro ⟨fault, h⟩
    obtain ⟨j, -, -, -, -, hj, -⟩ := first_of_ofStatements h
    exact ⟨j, hj⟩
  · rintro ⟨j, hj⟩
    cases h : Program.ofStatements sts with
    | error fault => exact ⟨fault, rfl⟩
    | ok p => exact absurd hj (not_repeatsLabel_of_nodup ((ofStatements_eq_ok_iff sts p).mp h).1 j)

theorem find?_declaredLabels_iff (h : ((declaredLabels 0 sts).map Prod.fst).Nodup) (name : String)
    (i : Nat) :
    (declaredLabels 0 sts).find? name = some i ↔ ∃ line, sts[i]? = some ⟨line, .label name⟩ := by
  constructor
  · intro hi
    obtain ⟨j, line, rfl, hj⟩ := mem_declaredLabels.mp (mem_of_find? hi)
    exact ⟨line, by rwa [Nat.zero_add]⟩
  · rintro ⟨line, hi⟩
    have hmem : (name, i) ∈ declaredLabels 0 sts := mem_declaredLabels.mpr ⟨i, line, by omega, hi⟩
    have hfound := (find?_isSome_iff _ name).mpr (List.mem_map_of_mem hmem)
    obtain ⟨j, hj⟩ := Option.isSome_iff_exists.mp hfound
    have heq := List.inj_on_of_nodup_map h hmem (mem_of_find? hj) rfl
    cases heq
    exact hj

end Labels

section Lines

variable {before behind rest text cs : List Char} {c sep : Char} {ts : List Token} {fault : Fault}

namespace Text

theorem length_splitAt (sep : Char) (cs : List Char) :
    (splitAt sep cs).length = cs.count sep + 1 := by
  induction cs with
  | nil => rfl
  | cons c cs ih =>
    by_cases hc : c = sep
    · rw [splitAt, if_pos hc, List.length_cons, ih, hc, List.count_cons_self]
    · obtain ⟨l, ls, hsplit⟩ := List.exists_cons_of_ne_nil (splitAt_ne_nil sep cs)
      rw [splitAt_cons_of_ne hc hsplit, List.count_cons_of_ne hc, ← ih, hsplit]
      rfl

theorem getLast?_of_splitAt (hne : cs ≠ []) (h : (splitAt sep cs).getLast? = some []) :
    cs.getLast? = some sep := by
  induction cs with
  | nil => exact absurd rfl hne
  | cons c cs ih =>
    obtain ⟨l, ls, hsplit⟩ := List.exists_cons_of_ne_nil (splitAt_ne_nil sep cs)
    by_cases hcs : cs = []
    · subst hcs
      by_cases hc : c = sep
      · rw [hc]
        rfl
      · rw [splitAt_cons_of_ne hc hsplit] at h
        cases hsplit
        cases h
    · rw [List.getLast?_cons_of_ne_nil hcs]
      apply ih hcs
      by_cases hc : c = sep
      · rwa [splitAt, if_pos hc, List.getLast?_cons_of_ne_nil (splitAt_ne_nil sep cs)] at h
      · rw [splitAt_cons_of_ne hc hsplit] at h
        rw [hsplit]
        cases ls with
        | nil => cases h
        | cons l' ls => rwa [List.getLast?_cons_cons] at h ⊢

end Text

theorem lineAt_le_length_lines (hc : c ≠ '\n') :
    lineAt before ≤ (Text.lines (before ++ c :: behind)).length := by
  have hcount : (before ++ c :: behind).count '\n' = before.count '\n' + behind.count '\n' := by
    rw [List.count_append, List.count_cons_of_ne hc]
  have hlength := Text.length_splitAt '\n' (before ++ c :: behind)
  rw [hcount] at hlength
  unfold Text.lines lineAt
  rw [List.length_map]
  split
  · next hlast =>
    -- An empty last piece is no line, but then another line ends behind the character.
    have hend := Text.getLast?_of_splitAt (by simp) hlast
    rw [List.getLast?_append_of_ne_nil _ (List.cons_ne_nil c behind)] at hend
    have hmem : '\n' ∈ behind :=
      (List.mem_cons.mp (List.mem_of_getLast? hend)).resolve_left (Ne.symm hc)
    have hpos : 0 < behind.count '\n' := List.count_pos_iff.mpr hmem
    rw [List.length_dropLast]
    omega
  · omega

theorem ne_newline_of_not_blank (h : Text.isBlank c = false) : c ≠ '\n' := by
  rintro rfl
  exact absurd h (by decide)

/-- The token stands where its first character does, and this breaks no line. -/
theorem line_of_layout (h : Layout [] before text ts) :
    ∀ t ∈ ts, ∃ front c behind, before ++ text = front ++ c :: behind ∧ c ≠ '\n' ∧
      t.line = lineAt front := by
  induction h with
  | blank _ => simp
  | @token before ws s more x ts hws hspelled hmore ih =>
    intro t ht
    rcases List.mem_cons.mp ht with rfl | ht
    · obtain ⟨c, cs, rfl, hblank, -⟩ := Lexeme.read_of_spelled hspelled
      exact ⟨before ++ ws, c, cs ++ more, by simp, ne_newline_of_not_blank hblank, rfl⟩
    · obtain ⟨front, c, behind, htext, hc, hline⟩ := ih t ht
      exact ⟨front, c, behind, by rw [← htext]; simp, hc, hline⟩

/-- The line is one of the lines of the text. -/
def OnLine (source : String) (line : Nat) : Prop :=
  1 ≤ line ∧ line ≤ (Text.lines source.toList).length

theorem onLine_of_char {source : String} (htext : source.toList = before ++ c :: behind)
    (hc : c ≠ '\n') : OnLine source (lineAt before) := by
  refine ⟨Nat.le_add_right 1 _, ?_⟩
  rw [htext]
  exact lineAt_le_length_lines hc

theorem onLine_of_scan {source : String} {tokens : List Token} (h : scan source = .ok tokens) :
    ∀ t ∈ tokens, OnLine source t.line := by
  intro t ht
  have hlayout : Layout [] [] source.toList tokens := layout_of_scanFrom h
  obtain ⟨front, c, behind, htext, hc, hline⟩ := line_of_layout hlayout t ht
  rw [hline]
  exact onLine_of_char htext hc

theorem stopsWith_of_scan {source : String} (h : scan source = .error fault) :
    StopsWith source fault ∧ OnLine source fault.line := by
  have hscan : scanFrom (Position.start.after []) source.toList = .error fault := h
  obtain ⟨text, culprit, more, ts, htext, -, hoffends, rfl⟩ := offends_of_scanFrom hscan
  obtain ⟨c, cs, rfl, hblank, -⟩ := Lexeme.read_of_offends hoffends
  exact ⟨.scanning h rfl, onLine_of_char htext (ne_newline_of_not_blank hblank)⟩

end Lines

namespace Reader

theorem meets_statementLine {tokens : List Token} (n : Nat) :
    Meets tokens (statement n) fun s => ∃ t ∈ tokens, t.line = s.line := by
  intro c s c' hc h
  refine ⟨(meets_statement n c s c' hc h).1, ?_⟩
  unfold statement at h
  split at h
  · cases h
  · next t ts hrest =>
    obtain ⟨command, c₁, -, hs⟩ :=
      (bind_eq_ok_iff (f := fun command => pure (Statement.mk t.line command))).mp h
    cases hs
    exact ⟨t, hc.subset (hrest ▸ List.mem_cons_self), rfl⟩

theorem meets_statementLines {tokens : List Token} (n : Nat) :
    Meets tokens (statements n) fun sts => ∀ s ∈ sts, ∃ t ∈ tokens, t.line = s.line := by
  induction n with
  | zero => exact meets_pure (by simp)
  | succ n ih =>
    intro c sts c' hc h
    unfold statements at h
    split at h
    · cases h
      exact ⟨hc, by simp⟩
    · have hmore : Meets tokens (do
          let s ← statement (n + 1)
          let more ← statements n
          pure (s :: more)) fun sts => ∀ s ∈ sts, ∃ t ∈ tokens, t.line = s.line :=
        meets_bind (meets_statementLine (n + 1)) fun s hs => meets_bind ih fun more hmore =>
          meets_pure (List.forall_mem_cons.mpr ⟨hs, hmore⟩)
      exact hmore c sts c' hc h

end Reader

theorem line_of_readStatements {tokens : List Token} {sts : List Statement}
    (h : readStatements tokens = .ok sts) : ∀ s ∈ sts, ∃ t ∈ tokens, t.line = s.line := by
  unfold readStatements at h
  cases hr : Reader.statements tokens.length ⟨0, tokens⟩ with
  | error e =>
    rw [hr] at h
    cases h
  | ok q =>
    rw [hr] at h
    cases h
    exact (Reader.meets_statementLines tokens.length _ q.1 q.2 (List.suffix_refl tokens) hr).2

section Compiling

variable {source : String} {tokens : List Token} {sts : List Statement} {p : Program} {fault : Fault}

theorem compile_of_read (hscan : scan source = .ok tokens) (hread : readStatements tokens = .ok sts) :
    Program.compile source = Program.ofStatements sts := by
  unfold Program.compile
  rw [hscan]
  change (readStatements tokens).bind Program.ofStatements = _
  rw [hread]
  rfl

theorem dependable_of_read (hread : readStatements tokens = .ok sts)
    (h : Program.ofStatements sts = .ok p) : p.Dependable tokens := by
  obtain ⟨hnodup, rfl⟩ := (ofStatements_eq_ok_iff sts p).mp h
  refine ⟨(told_readStatements tokens).1 sts hread, fun a ha => Program.target_of_mem_assignments ha,
    fun s hs vars hvars => ?_, fun s hs var start stop step hloop => ?_,
    fun name i => find?_declaredLabels_iff hnodup name i⟩
  · have hnames := readStatements_namesVariable hread s hs
    rw [hvars] at hnames
    exact hnames
  · have hmet := exprsMet_of_readStatements hread s hs
    rw [hloop] at hmet
    exact ⟨hmet start (by simp [Command.exprs]), hmet stop (by simp [Command.exprs]),
      hmet step (by simp [Command.exprs])⟩

theorem stopsWith_of_compile (h : Program.compile source = .error fault) :
    StopsWith source fault ∧ OnLine source fault.line := by
  cases hscan : scan source with
  | error e =>
    unfold Program.compile at h
    rw [hscan] at h
    cases h
    exact stopsWith_of_scan hscan
  | ok tokens =>
    have hline {line : Nat} (ht : ∃ t ∈ tokens, t.line = line) : OnLine source line := by
      obtain ⟨t, ht, rfl⟩ := ht
      exact onLine_of_scan hscan t ht
    cases hread : readStatements tokens with
    | error e =>
      unfold Program.compile at h
      rw [hscan] at h
      change (readStatements tokens).bind Program.ofStatements = .error fault at h
      rw [hread] at h
      cases h
      have hmisread := (told_readStatements tokens).2 fault hread
      exact ⟨.reading hscan hread hmisread.category, hline hmisread.line⟩
    | ok sts =>
      rw [compile_of_read hscan hread] at h
      obtain ⟨j, line, name, rfl, hj, -⟩ := first_of_ofStatements h
      exact ⟨.labelling hscan hread h rfl,
        hline (line_of_readStatements hread _ (List.mem_of_getElem? hj))⟩

end Compiling

/-- A text is compiled to a dependable program, or it is refused. A text that is read as statements is
refused just if a label is declared twice, and then for the first label that repeats another. The category
of a fault tells the phase that stops, and its line is a line of the text. -/
theorem compile_dependable_or_refused (source : String) :
    (∀ p, Program.compile source = .ok p →
        ∃ tokens, scan source = .ok tokens ∧ p.Dependable tokens) ∧
      (∀ tokens sts, scan source = .ok tokens → readStatements tokens = .ok sts →
        ((∃ fault, Program.compile source = .error fault) ↔ ∃ j, RepeatsLabel sts j) ∧
          ∀ fault, Program.compile source = .error fault →
            ∃ j line name, fault = .duplicateLabel line name ∧ sts[j]? = some ⟨line, .label name⟩ ∧
              RepeatsLabel sts j ∧ ∀ i < j, ¬ RepeatsLabel sts i) ∧
      ∀ fault, Program.compile source = .error fault →
        StopsWith source fault ∧ OnLine source fault.line := by
  refine ⟨fun p h => ?_, fun tokens sts hscan hread => ?_, fun fault h => stopsWith_of_compile h⟩
  · obtain ⟨tokens, sts, hscan, hread, hlabels⟩ := parts_of_compile h
    exact ⟨tokens, hscan, dependable_of_read hread hlabels⟩
  · rw [compile_of_read hscan hread]
    exact ⟨ofStatements_eq_error_iff, fun fault h => first_of_ofStatements h⟩

/-- An arrow to a variable in parentheses, a prompt and a label. -/
def errand : Program where
  statements := [⟨1, .compute (.assign 1 (.name 1 "B") 1 "A")⟩, ⟨2, .prompt ["C"]⟩, ⟨3, .label "D"⟩]
  labels := [("D", 2)]

theorem compile_errand : Program.compile "B->(A)\nPrompt C\nLbl D" = .ok errand := by
  cbv

def doubled : List Token :=
  [⟨.identifier "Lbl", 1, 1⟩, ⟨.identifier "A", 1, 5⟩, ⟨.identifier "Lbl", 2, 1⟩, ⟨.identifier "A", 2, 5⟩]

theorem scan_doubled : scan "Lbl A\nLbl A" = .ok doubled := by
  cbv

theorem readStatements_doubled : readStatements doubled = .ok [⟨1, .label "A"⟩, ⟨2, .label "A"⟩] := by
  cbv

/-- The errand is dependable, a label on two lines is refused on the second, and so is an arrow to a sum. -/
theorem compile_dependable_or_refused_errand :
    (∃ tokens, scan "B->(A)\nPrompt C\nLbl D" = .ok tokens ∧ errand.Dependable tokens) ∧
      (∃ fault, Program.compile "Lbl A\nLbl A" = .error fault) ∧
      StopsWith "B->\nA+C" (.unexpectedToken 2 1 "Identifier" "Identifier(A)") := by
  have hrepeats : RepeatsLabel [⟨1, .label "A"⟩, ⟨2, .label "A"⟩] 1 :=
    ⟨0, "A", 1, 2, by decide, rfl, rfl⟩
  have hsum : Program.compile "B->\nA+C" =
      .error (.unexpectedToken 2 1 "Identifier" "Identifier(A)") := by
    cbv
  obtain ⟨haccepted, -, -⟩ := compile_dependable_or_refused "B->(A)\nPrompt C\nLbl D"
  obtain ⟨-, hlabels, -⟩ := compile_dependable_or_refused "Lbl A\nLbl A"
  obtain ⟨-, -, hfault⟩ := compile_dependable_or_refused "B->\nA+C"
  exact ⟨haccepted errand compile_errand,
    (hlabels doubled _ scan_doubled readStatements_doubled).1.mpr ⟨1, hrepeats⟩, (hfault _ hsum).1⟩

end PocketBasic
