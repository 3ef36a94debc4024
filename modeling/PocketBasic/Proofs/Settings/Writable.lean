import Mathlib
import PocketBasic.Proofs.Entries
import PocketBasic.Proofs.Settings.Legible

/-!
# Settings that can be written to a file

Settings come back from the file they are written to if every name, key and value is read back from its
line, no name and no key occurs twice, and no key stands in a section without a name. All settings that
have been read from a file are of this kind, and so are those of a new installation.
-/

namespace PocketBasic.Settings

section Entries

variable {α : Type} {key k : String} {value v : α} {e : String × α} {l front rest : List (String × α)}

theorem lookup_assign (key k : String) (value : α) (l : List (String × α)) :
    (assign key value l).lookup k = if k = key then some value else l.lookup k := by
  induction l with
  | nil =>
    unfold assign
    split
    · next hk => rw [hk, List.lookup_cons_self]
    · next hk => exact lookup_cons_of_ne hk
  | cons e l ih =>
    unfold assign
    by_cases hkey : key = e.1
    · rw [if_pos (beq_iff_eq.mpr hkey), ← hkey]
      split
      · next hk => rw [hk, List.lookup_cons_self]
      · next hk => rw [lookup_cons_of_ne hk, lookup_cons_of_ne (hkey ▸ hk)]
    · rw [if_neg (fun h => hkey (beq_iff_eq.mp h))]
      by_cases hk : k = e.1
      · rw [if_neg (fun h => hkey (h.symm.trans hk)), hk, List.lookup_cons_self, List.lookup_cons_self]
      · rw [lookup_cons_of_ne hk, lookup_cons_of_ne hk, ih]

theorem assign_of_not_mem (h : key ∉ l.map Prod.fst) : assign key value l = l ++ [(key, value)] := by
  induction l with
  | nil => rfl
  | cons e l ih =>
    rw [List.map_cons, List.mem_cons, not_or] at h
    rw [assign, beq_false_of_ne h.1, if_neg Bool.false_ne_true, ih h.2, List.cons_append]

theorem assign_append_cons (h : key ∉ front.map Prod.fst) (old : α) :
    assign key value (front ++ (key, old) :: rest) = front ++ (key, value) :: rest := by
  induction front with
  | nil => rw [List.nil_append, assign, beq_self_eq_true, if_pos rfl, List.nil_append]
  | cons e front ih =>
    rw [List.map_cons, List.mem_cons, not_or] at h
    rw [List.cons_append, assign, beq_false_of_ne h.1, if_neg Bool.false_ne_true, ih h.2,
      List.cons_append]

theorem exists_of_mem_keys (h : (l.map Prod.fst).Nodup) (hkey : key ∈ l.map Prod.fst) :
    ∃ front old rest, l = front ++ (key, old) :: rest ∧ key ∉ front.map Prod.fst := by
  obtain ⟨⟨_, old⟩, hold, rfl⟩ := List.mem_map.mp hkey
  obtain ⟨front, rest, rfl⟩ := List.append_of_mem hold
  refine ⟨front, old, rest, rfl, fun hmem => ?_⟩
  rw [List.map_append, List.map_cons, List.nodup_append] at h
  exact h.2.2 _ hmem _ List.mem_cons_self rfl

theorem nodup_append_singleton (h : (l.map Prod.fst).Nodup) (hnew : key ∉ l.map Prod.fst) :
    ((l ++ [(key, value)]).map Prod.fst).Nodup := by
  rw [List.map_append]
  refine List.nodup_append.mpr ⟨h, List.nodup_singleton _, fun a ha b hb hab => hnew ?_⟩
  have hkey : b = key := List.mem_singleton.mp hb
  rwa [hab, hkey] at ha

/-- What is listed after an assignment, and that no key is listed twice. -/
theorem nodup_and_mem_assign (key : String) (value : α) (h : (l.map Prod.fst).Nodup) :
    ((assign key value l).map Prod.fst).Nodup ∧
      ∀ e ∈ assign key value l, e = (key, value) ∨ e ∈ l := by
  by_cases hmem : key ∈ l.map Prod.fst
  · obtain ⟨front, old, rest, rfl, hfront⟩ := exists_of_mem_keys h hmem
    rw [assign_append_cons hfront]
    refine ⟨by simpa only [List.map_append, List.map_cons] using h, fun e he => ?_⟩
    simp only [List.mem_append, List.mem_cons] at he ⊢
    tauto
  · rw [assign_of_not_mem hmem]
    refine ⟨nodup_append_singleton h hmem, fun e he => ?_⟩
    rcases List.mem_append.mp he with he | he
    · exact .inr he
    · exact .inl (List.mem_singleton.mp he)

end Entries

variable {s : Settings} {current name key value text : String} {n : Nat} {entries : Section}
  {lines : List (List Char)}

/-- A section that is read back from the lines that are written for it. -/
structure LegibleSection (name : String) (entries : Section) : Prop where
  distinct : (entries.map Prod.fst).Nodup
  header : Legible (headerLine name) (.header name)
  pairs : ∀ e ∈ entries, Legible (pairLine e.1 e.2) (.pair e.1 e.2)
  named : entries ≠ [] → name ≠ ""

/-- Settings that are read back from the file that is written for them. -/
structure Writable (s : Settings) : Prop where
  distinct : (s.sections.map Prod.fst).Nodup
  legible : ∀ x ∈ s.sections, LegibleSection x.1 x.2

theorem writable_empty : Writable {} where
  distinct := List.nodup_nil
  legible _ hx := absurd hx List.not_mem_nil

theorem section?_set_isSome (s : Settings) (name key value other : String) :
    ((s.set name key value).section? other).isSome ↔ other = name ∨ (s.section? other).isSome := by
  rw [Settings.set, section?, lookup_assign]
  by_cases hother : other = name
  · simp [hother]
  · simp [hother, section?]

theorem section?_openSection_isSome (s : Settings) (name other : String) :
    ((s.openSection name).section? other).isSome ↔ other = name ∨ (s.section? other).isSome := by
  unfold Settings.openSection
  split
  · next found hfound =>
    refine ⟨.inr, fun h => h.elim (fun heq => ?_) id⟩
    rw [heq, hfound]
    rfl
  · simp only [section?, lookup_isSome_iff_mem, List.map_append, List.mem_append, List.map_cons,
      List.map_nil, List.mem_singleton]
    exact or_comm

theorem Writable.openSection (hs : s.Writable) (hheader : Legible (headerLine name) (.header name)) :
    (s.openSection name).Writable := by
  unfold Settings.openSection
  split
  · exact hs
  · next hnone =>
    have hnew : name ∉ s.sections.map Prod.fst := fun hmem => by
      rw [← lookup_isSome_iff_mem, ← section?, hnone] at hmem
      cases hmem
    refine ⟨nodup_append_singleton hs.distinct hnew, fun x hx => ?_⟩
    rcases List.mem_append.mp hx with hx | hx
    · exact hs.legible x hx
    · rw [List.mem_singleton.mp hx]
      exact ⟨List.nodup_nil, hheader, fun _ he => absurd he List.not_mem_nil, absurd rfl⟩

theorem LegibleSection.assign (h : LegibleSection name entries) (hname : name ≠ "")
    (hpair : Legible (pairLine key value) (.pair key value)) :
    LegibleSection name (Settings.assign key value entries) := by
  obtain ⟨hdistinct, hmem⟩ := nodup_and_mem_assign key value h.distinct
  refine ⟨hdistinct, h.header, fun e he => ?_, fun _ => hname⟩
  rcases hmem e he with rfl | he
  · exact hpair
  · exact h.pairs e he

theorem Writable.set (hs : s.Writable) (hname : name ≠ "") (hopen : (s.section? name).isSome)
    (hpair : Legible (pairLine key value) (.pair key value)) : (s.set name key value).Writable := by
  obtain ⟨entries, hentries⟩ := Option.isSome_iff_exists.mp hopen
  have hold : s.sectionOf name = entries := by rw [sectionOf, hentries, Option.getD_some]
  have hlisted : (name, entries) ∈ s.sections := (lookup_eq_some_iff_mem hs.distinct).mp hentries
  obtain ⟨hdistinct, hmem⟩ :=
    nodup_and_mem_assign name (Settings.assign key value (s.sectionOf name)) hs.distinct
  refine ⟨hdistinct, fun x hx => ?_⟩
  rcases hmem x hx with rfl | hx
  · rw [hold]
    exact (hs.legible _ hlisted).assign hname hpair
  · exact hs.legible x hx

/-- Reading a file without a fault leaves settings that can be written. The section that is being read
exists all the time. -/
theorem writable_readLines (hs : s.Writable) (hopen : current = "" ∨ (s.section? current).isSome)
    (hlines : ∀ raw ∈ lines, '\n' ∉ raw) (hread : (s.readLines current n lines).2 = none) :
    (s.readLines current n lines).1.Writable := by
  induction lines generalizing s current n with
  | nil => exact hs
  | cons raw rest ih =>
    have hraw : '\n' ∉ raw := hlines raw List.mem_cons_self
    have hrest : ∀ l ∈ rest, '\n' ∉ l := fun l hl => hlines l (List.mem_cons_of_mem raw hl)
    unfold readLines at hread ⊢
    split at hread
    · cases hread
    · next hlong =>
      have hshort : Text.byteLength raw ≤ maxLine := Nat.le_of_not_lt hlong
      rw [if_neg hlong]
      simp only at hread ⊢
      split at hread
      · exact ih hs hopen hrest hread
      · next name hkind =>
        exact ih (hs.openSection (legible_headerLine hraw hshort hkind))
          (.inr ((section?_openSection_isSome s name name).mpr (.inl rfl))) hrest hread
      · cases hread
      · next key value hkind =>
        split at hread
        · cases hread
        · next hnamed =>
          have hname : current ≠ "" := fun h => hnamed (by rw [h]; rfl)
          rw [if_neg hnamed]
          exact ih (hs.set hname (hopen.resolve_left hname) (legible_pairLine hraw hshort hkind))
            (.inr ((section?_set_isSome s current key value current).mpr (.inl rfl))) hrest hread

theorem newline_not_mem_rawLines {raw cs : List Char} (h : raw ∈ rawLines cs) : '\n' ∉ raw := by
  unfold rawLines at h
  simp only at h
  split at h
  · exact Text.not_mem_of_mem_splitAt (List.mem_of_mem_dropLast h)
  · exact Text.not_mem_of_mem_splitAt h

theorem writable_of_parse (h : parse text = .ok s) : s.Writable := by
  have hread : ({} : Settings).merge text = (s, none) := by
    unfold parse at h
    split at h
    · next s' hmerge =>
      cases h
      exact hmerge
    · cases h
  unfold merge at hread
  have hwritable := writable_readLines (n := 1) writable_empty (.inl rfl)
    (fun _ => newline_not_mem_rawLines) (congrArg Prod.snd hread)
  rwa [hread] at hwritable

instance (line : List Char) (kind : LineKind) : Decidable (Legible line kind) :=
  decidable_of_iff ('\n' ∉ line ∧ Text.byteLength line ≤ maxLine ∧ lineKind line = kind)
    ⟨fun ⟨hunbroken, hshort, hmeaning⟩ => ⟨hunbroken, hshort, hmeaning⟩,
      fun h => ⟨h.unbroken, h.short, h.meaning⟩⟩

instance (name : String) (entries : Section) : Decidable (LegibleSection name entries) :=
  decidable_of_iff ((entries.map Prod.fst).Nodup ∧ Legible (headerLine name) (.header name) ∧
      (∀ e ∈ entries, Legible (pairLine e.1 e.2) (.pair e.1 e.2)) ∧ (entries ≠ [] → name ≠ ""))
    ⟨fun ⟨hdistinct, hheader, hpairs, hnamed⟩ => ⟨hdistinct, hheader, hpairs, hnamed⟩,
      fun h => ⟨h.distinct, h.header, h.pairs, h.named⟩⟩

theorem writable_defaults : defaults.Writable where
  distinct := by decide +kernel
  legible := by decide +kernel

end PocketBasic.Settings
