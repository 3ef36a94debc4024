import Mathlib
import PocketBasic.Proofs.Settings.Layering
import PocketBasic.Proofs.Text.Pieces

/-!
# Lines that are read back as what they were

A header and a pair lose the blanks around their parts when they are read. What is left is written on a
line of its own, which starts and ends with the same characters as the line that was read. So it is not
taken for a comment or a header now, and says the same again.
-/

namespace PocketBasic.Settings

open Text

variable {line raw k v : List Char} {name key value : String} {kind : LineKind}

def headerLine (name : String) : List Char := '[' :: name.toList ++ [']']

def pairLine (key value : String) : List Char := key.toList ++ '=' :: value.toList

theorem header?_isSome_iff :
    (header? line).isSome ↔ line.head? = some '[' ∧ line.getLast? = some ']' := by
  cases line with
  | nil => simp [header?]
  | cons c rest =>
    by_cases hc : c = '['
    · subst hc
      cases rest with
      | nil => simp [header?]
      | cons d rest =>
        by_cases hlast : (d :: rest).getLast? = some ']' <;> simp [header?, hlast]
    · simp [header?, hc]

theorem header?_headerLine (name : String) :
    header? (headerLine name) = some (String.ofList (trimChars name.toList)) := by
  simp [header?, headerLine]

theorem eq_of_header? (h : header? line = some name) :
    ∃ inner, line = '[' :: inner ++ [']'] ∧ name = String.ofList (trimChars inner) := by
  obtain ⟨hfirst, hlast⟩ := header?_isSome_iff.mp (by rw [h]; rfl)
  cases line with
  | nil => cases hfirst
  | cons c rest =>
    cases hfirst
    unfold header? at h
    split at h
    · next heq =>
      cases heq
      split at h
      · next hclose =>
        cases h
        obtain ⟨inner, hinner⟩ := List.getLast?_eq_some_iff.mp hclose
        exact ⟨inner, by rw [hinner]; rfl, by rw [hinner, List.dropLast_concat]⟩
      · cases h
    · cases h

/-- A line that is no comment and not blank. -/
def Meaningful (line : List Char) : Prop :=
  ∃ c, line.head? = some c ∧ c ≠ ';' ∧ c ≠ '#'

theorem classify_of_meaningful (h : Meaningful line) : classify line =
    match header? line with
    | some name => .header name
    | none => match cut? '=' line with
      | some (key, value) => .pair (String.ofList (trimChars key)) (String.ofList (trimChars value))
      | none => .junk := by
  obtain ⟨c, hfirst, hsemicolon, hhash⟩ := h
  have hnot : ¬ (line.isEmpty || line.head? = some ';' || line.head? = some '#') = true := by
    cases line with
    | nil => cases hfirst
    | cons d line =>
      cases hfirst
      simp [hsemicolon, hhash]
  unfold classify
  exact if_neg hnot

theorem meaningful_of_classify (h : classify line = kind) (hkind : kind ≠ .nothing) :
    Meaningful line := by
  unfold classify at h
  split at h
  · exact absurd h.symm hkind
  · next hnot =>
    cases line with
    | nil => exact absurd rfl hnot
    | cons c line =>
      simp only [List.isEmpty_cons, List.head?_cons, Option.some_inj, Bool.false_or,
        Bool.or_eq_true, decide_eq_true_eq, not_or] at hnot
      exact ⟨c, rfl, hnot⟩

theorem eq_of_classify_header (h : classify line = .header name) :
    ∃ inner, line = '[' :: inner ++ [']'] ∧ name = String.ofList (trimChars inner) := by
  rw [classify_of_meaningful (meaningful_of_classify h (by simp))] at h
  split at h
  · next hheader =>
    cases h
    exact eq_of_header? hheader
  · split at h <;> cases h

theorem eq_of_classify_pair (h : classify line = .pair key value) :
    header? line = none ∧ ∃ k v, '=' ∉ k ∧ line = k ++ '=' :: v ∧
      key = String.ofList (trimChars k) ∧ value = String.ofList (trimChars v) := by
  rw [classify_of_meaningful (meaningful_of_classify h (by simp))] at h
  split at h
  · cases h
  · next hheader =>
    split at h
    · next k v hcut =>
      cases h
      obtain ⟨hnone, hline⟩ := cut?_eq_some_iff.mp hcut
      exact ⟨hheader, k, v, hnone, hline, rfl, rfl⟩
    · cases h

/-- A line that can stand in a settings file, and what it says there. -/
structure Legible (line : List Char) (kind : LineKind) : Prop where
  unbroken : '\n' ∉ line
  short : byteLength line ≤ maxLine
  meaning : lineKind line = kind

/-- Dropping characters of a line makes it no longer and breaks it nowhere. -/
theorem Legible.of_sublist (hsub : line.Sublist raw) (hunbroken : '\n' ∉ raw)
    (hshort : byteLength raw ≤ maxLine) (hmeaning : lineKind line = kind) : Legible line kind where
  unbroken hmem := hunbroken (hsub.subset hmem)
  short := (byteLength_le_of_sublist hsub).trans hshort
  meaning := hmeaning

def content (raw : List Char) : List Char := trimChars (dropCarriageReturn raw)

theorem content_sublist (raw : List Char) : (content raw).Sublist raw :=
  (trimChars_sublist _).trans (dropCarriageReturn_sublist raw)

theorem lineKind_of_ends {c d : Char} (hfirst : line.head? = some c) (hc : isBlank c = false)
    (hlast : line.getLast? = some d) (hd : isBlank d = false) : lineKind line = classify line := by
  have hends : ∀ e, line.getLast? = some e → isBlank e = false := fun e he => by
    rw [hlast] at he
    cases he
    exact hd
  unfold lineKind
  rw [dropCarriageReturn_eq_self hends, trimChars_eq_self _ hends]
  intro e he
  rw [hfirst] at he
  cases he
  exact hc

/-- A header that was read is read back from the line that is written for it. -/
theorem legible_headerLine (hunbroken : '\n' ∉ raw) (hshort : byteLength raw ≤ maxLine)
    (h : lineKind raw = .header name) : Legible (headerLine name) (.header name) := by
  have hkind : classify (content raw) = .header name := h
  obtain ⟨inner, hline, hname⟩ := eq_of_classify_header hkind
  have hsub : (headerLine name).Sublist raw := by
    refine List.Sublist.trans ?_ (content_sublist raw)
    rw [hline, hname, headerLine, String.toList_ofList]
    exact ((trimChars_sublist inner).cons_cons '[').append_right [']']
  refine Legible.of_sublist hsub hunbroken hshort ?_
  have hlast : (headerLine name).getLast? = some ']' := List.getLast?_concat
  rw [lineKind_of_ends (c := '[') rfl (by decide) hlast (by decide),
    classify_of_meaningful ⟨'[', rfl, by decide, by decide⟩, header?_headerLine, hname,
    String.toList_ofList, trimChars_trimChars]

/-- The line that is written for a pair starts and ends like the line that was read. -/
theorem ends_of_pair {c d : Char} (hfirst : (k ++ '=' :: v).head? = some c) (hc : isBlank c = false)
    (hlast : (k ++ '=' :: v).getLast? = some d) (hd : isBlank d = false) :
    (trimChars k ++ '=' :: trimChars v).head? = some c ∧
      (trimChars k ++ '=' :: trimChars v).getLast? = some d := by
  constructor
  · cases k with
    | nil => exact hfirst
    | cons e k =>
      have hkept : (trimChars (e :: k)).head? = some c := head?_trimChars hfirst hc
      rw [List.head?_append, hkept]
      rfl
  · rw [List.getLast?_append_of_ne_nil _ (List.cons_ne_nil _ _)] at hlast ⊢
    cases v with
    | nil => exact hlast
    | cons e v =>
      rw [List.getLast?_cons_cons] at hlast
      have hkept := getLast?_trimChars hlast hd
      rw [List.getLast?_cons, hkept]
      rfl

/-- A pair that was read is read back from the line that is written for it. -/
theorem legible_pairLine (hunbroken : '\n' ∉ raw) (hshort : byteLength raw ≤ maxLine)
    (h : lineKind raw = .pair key value) : Legible (pairLine key value) (.pair key value) := by
  have hkind : classify (content raw) = .pair key value := h
  obtain ⟨hheader, k, v, hnone, hline, hkey, hvalue⟩ := eq_of_classify_pair hkind
  have hwritten : pairLine key value = trimChars k ++ '=' :: trimChars v := by
    rw [pairLine, hkey, hvalue, String.toList_ofList, String.toList_ofList]
  have hsub : (pairLine key value).Sublist raw := by
    refine List.Sublist.trans ?_ (content_sublist raw)
    rw [hwritten, hline]
    exact (trimChars_sublist k).append ((trimChars_sublist v).cons_cons '=')
  refine Legible.of_sublist hsub hunbroken hshort ?_
  obtain ⟨c, hfirst, hcomment⟩ := meaningful_of_classify hkind (by simp)
  have hc : isBlank c = false := isBlank_of_head?_trimChars hfirst
  obtain ⟨d, hlast⟩ : ∃ d, (content raw).getLast? = some d :=
    ⟨_, List.getLast?_eq_some_getLast (List.ne_nil_of_mem (List.mem_of_head? hfirst))⟩
  have hd : isBlank d = false := isBlank_of_getLast?_trimChars hlast
  obtain ⟨hfirst', hlast'⟩ := ends_of_pair (hline ▸ hfirst) hc (hline ▸ hlast) hd
  have hheader' : header? (trimChars k ++ '=' :: trimChars v) = none := by
    rw [← Option.not_isSome_iff_eq_none, header?_isSome_iff, hfirst', hlast', ← hfirst, ← hlast,
      ← header?_isSome_iff, hheader]
    exact Bool.false_ne_true
  have hcut : cut? '=' (trimChars k ++ '=' :: trimChars v) = some (trimChars k, trimChars v) :=
    cut?_eq_some_iff.mpr ⟨fun hmem => hnone ((trimChars_sublist k).subset hmem), rfl⟩
  rw [hwritten, lineKind_of_ends hfirst' hc hlast' hd, classify_of_meaningful ⟨c, hfirst', hcomment⟩,
    hheader', hcut, hkey, hvalue]
  simp only [trimChars_trimChars]

end PocketBasic.Settings
