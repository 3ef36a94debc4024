import PocketBasic.Program.Compile

/-!
# The label table of a program

`declaredLabels` lists the labels of a statement list with their positions. Collecting labels succeeds
exactly if no name is declared twice, and then gives this list. So the table of an accepted program
finds a position for a name exactly if the statement there declares the name.
-/

namespace PocketBasic

def Command.declared? : Command → Option String
  | .label name => some name
  | _ => none

/-- The labels of statements that start at position `i`, with their positions. -/
def declaredLabels (i : Nat) : List Statement → LabelTable
  | [] => []
  | s :: rest => match s.command.declared? with
    | some name => (name, i) :: declaredLabels (i + 1) rest
    | none => declaredLabels (i + 1) rest

theorem collect_cons_label (t : LabelTable) (i : Nat) (s : Statement) (rest : List Statement)
    {name : String} (h : s.command.declared? = some name) :
    LabelTable.collect t i (s :: rest) =
      if (t.find? name).isSome then .error (.duplicateLabel s.line name)
      else LabelTable.collect (t ++ [(name, i)]) (i + 1) rest := by
  obtain ⟨line, c⟩ := s
  cases c <;> cases h
  rfl

theorem collect_cons_other (t : LabelTable) (i : Nat) (s : Statement) (rest : List Statement)
    (h : s.command.declared? = none) :
    LabelTable.collect t i (s :: rest) = LabelTable.collect t (i + 1) rest := by
  obtain ⟨line, c⟩ := s
  cases c <;> first | rfl | cases h

theorem find?_isSome_iff (t : LabelTable) (name : String) :
    (t.find? name).isSome ↔ name ∈ t.map Prod.fst := by
  simp only [LabelTable.find?, List.lookup_isSome_iff, beq_iff_eq, List.mem_map]
  exact ⟨fun ⟨e, he, hn⟩ => ⟨e, he, hn.symm⟩, fun ⟨e, he, hn⟩ => ⟨e, he, hn.symm⟩⟩

/-- Labels are collected exactly if the names are distinct, and then in order. -/
theorem collect_eq_ok_iff (t t' : LabelTable) (i : Nat) (sts : List Statement)
    (ht : (t.map Prod.fst).Nodup) :
    LabelTable.collect t i sts = .ok t' ↔
      ((t ++ declaredLabels i sts).map Prod.fst).Nodup ∧ t' = t ++ declaredLabels i sts := by
  induction sts generalizing t i with
  | nil => simp [LabelTable.collect, declaredLabels, ht, eq_comm]
  | cons s rest ih =>
    cases hd : s.command.declared? with
    | none =>
      rw [collect_cons_other t i s rest hd, ih t (i + 1) ht]
      simp only [declaredLabels, hd]
    | some name =>
      rw [collect_cons_label t i s rest hd]
      have happ : t ++ declaredLabels i (s :: rest) =
          (t ++ [(name, i)]) ++ declaredLabels (i + 1) rest := by
        simp only [declaredLabels, hd, List.append_assoc, List.singleton_append]
      rw [happ]
      by_cases hmem : name ∈ t.map Prod.fst
      · rw [if_pos ((find?_isSome_iff t name).mpr hmem)]
        constructor
        · intro h
          cases h
        · rintro ⟨hn, -⟩
          exfalso
          rw [List.map_append, List.map_append, List.nodup_append] at hn
          have hdup := (List.nodup_append.mp hn.1).2.2 name hmem name (by simp)
          exact hdup rfl
      · rw [if_neg (fun h => hmem ((find?_isSome_iff t name).mp h))]
        apply ih
        rw [List.map_append, List.nodup_append]
        refine ⟨ht, by simp, ?_⟩
        intro x hx y hy
        have hy' : y = name := by simpa using hy
        rw [hy']
        exact fun he => hmem (he ▸ hx)

theorem mem_declaredLabels {name : String} {i j : Nat} {sts : List Statement} :
    (name, j) ∈ declaredLabels i sts ↔
      ∃ k line, j = i + k ∧ sts[k]? = some ⟨line, .label name⟩ := by
  induction sts generalizing i with
  | nil => simp [declaredLabels]
  | cons s rest ih =>
    obtain ⟨line, c⟩ := s
    have hrest : (name, j) ∈ declaredLabels (i + 1) rest ↔
        ∃ k l, j = i + (k + 1) ∧ rest[k]? = some ⟨l, .label name⟩ := by
      rw [ih]
      simp only [Nat.add_assoc, Nat.add_comm 1]
    cases hd : c.declared? with
    | none =>
      simp only [declaredLabels, hd]
      rw [hrest]
      constructor
      · rintro ⟨k, l, hj, hk⟩
        exact ⟨k + 1, l, hj, hk⟩
      · rintro ⟨k, l, hj, hk⟩
        cases k with
        | zero =>
          cases hk
          cases hd
        | succ k => exact ⟨k, l, hj, hk⟩
    | some n =>
      have hc : c = .label n := by
        cases c <;> cases hd
        rfl
      subst hc
      simp only [declaredLabels, hd, List.mem_cons]
      rw [hrest]
      constructor
      · rintro (he | ⟨k, l, hj, hk⟩)
        · cases he
          exact ⟨0, line, rfl, rfl⟩
        · exact ⟨k + 1, l, hj, hk⟩
      · rintro ⟨k, l, hj, hk⟩
        cases k with
        | zero =>
          cases hk
          exact .inl (by rw [hj]; rfl)
        | succ k => exact .inr ⟨k, l, hj, hk⟩

theorem mem_of_find? {t : LabelTable} {name : String} {i : Nat} (h : t.find? name = some i) :
    (name, i) ∈ t := by
  obtain ⟨before, behind, ht, -⟩ := List.lookup_eq_some_iff.mp h
  rw [ht]
  simp

theorem ofStatements_eq_ok_iff (sts : List Statement) (p : Program) :
    Program.ofStatements sts = .ok p ↔
      ((declaredLabels 0 sts).map Prod.fst).Nodup ∧ p = ⟨sts, declaredLabels 0 sts⟩ := by
  have hcollect (t' : LabelTable) := collect_eq_ok_iff [] t' 0 sts (by simp)
  simp only [List.nil_append] at hcollect
  unfold Program.ofStatements
  cases hc : LabelTable.collect [] 0 sts with
  | error e =>
    constructor
    · intro h
      cases h
    · rintro ⟨hn, -⟩
      have hok := (hcollect (declaredLabels 0 sts)).mpr ⟨hn, rfl⟩
      rw [hc] at hok
      cases hok
  | ok t =>
    obtain ⟨hn, rfl⟩ := (hcollect t).mp hc
    constructor
    · intro h
      cases h
      exact ⟨hn, rfl⟩
    · rintro ⟨-, rfl⟩
      rfl

/-- The table of a program that was made from its statements leads to declarations only. -/
theorem statement_of_find? {sts : List Statement} {p : Program}
    (h : Program.ofStatements sts = .ok p) {name : String} {i : Nat}
    (hi : p.labels.find? name = some i) :
    ∃ line, p.statements[i]? = some ⟨line, .label name⟩ := by
  obtain ⟨-, rfl⟩ := (ofStatements_eq_ok_iff sts p).mp h
  obtain ⟨k, line, rfl, hk⟩ := mem_declaredLabels.mp (mem_of_find? hi)
  rw [Nat.zero_add]
  exact ⟨line, hk⟩

end PocketBasic
