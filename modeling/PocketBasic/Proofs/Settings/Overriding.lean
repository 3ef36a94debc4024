import Mathlib
import PocketBasic.Proofs.Settings.Writable

/-!
# Settings files one on top of another

A settings file without a fault is a sequence of edits: it opens sections and assigns values to their keys.
Reading it carries these edits out, on whatever settings there are before. The section that a file ends in
plays no part in the next one, since a file without a fault opens a section before it assigns anything. So
two files one after another do what their texts do as one file, and each key has the value that was
assigned to it last.
-/

namespace PocketBasic.Settings

inductive Edit where
  | opening (name : String)
  | assigning (name key value : String)
deriving DecidableEq, Repr

namespace Edit

def name : Edit → String
  | .opening name => name
  | .assigning name _ _ => name

def apply (s : Settings) : Edit → Settings
  | .opening name => s.openSection name
  | .assigning name key value => s.set name key value

/-- The value that an edit gives to a key of a section. -/
def value? (name key : String) : Edit → Option String
  | .opening _ => none
  | .assigning name' key' value => if name' = name ∧ key' = key then some value else none

end Edit

/-- The edits of a line that stands in the section `current`. -/
def editsOfLine (current : String) : LineKind → List Edit
  | .header name => [.opening name]
  | .pair key value => [.assigning current key value]
  | .nothing | .junk => []

def sectionBehind (current : String) : LineKind → String
  | .header name => name
  | .pair _ _ | .nothing | .junk => current

/-- The edits of lines from the section `current` on, in order. -/
def edits (current : String) : List (List Char) → List Edit
  | [] => []
  | raw :: rest =>
    editsOfLine current (lineKind raw) ++ edits (sectionBehind current (lineKind raw)) rest

def editsOf (text : String) : List Edit := edits "" (rawLines text.toList)

/-- The value that edits give to a key last. -/
def lastAssigned? (E : List Edit) (name key : String) : Option String :=
  E.reverse.findSome? (Edit.value? name key)

/-! ### What edits do -/

section Edits

variable {name key : String}

theorem section?_apply_isSome (s : Settings) (e : Edit) (other : String) :
    ((e.apply s).section? other).isSome ↔ other = e.name ∨ (s.section? other).isSome := by
  cases e with
  | opening name => exact section?_openSection_isSome s name other
  | assigning name key value => exact section?_set_isSome s name key value other

theorem get?_openSection (s : Settings) (opened name key : String) :
    (s.openSection opened).get? name key = s.get? name key := by
  unfold openSection
  split
  · rfl
  · next hnone =>
    unfold get? sectionOf section?
    rw [List.lookup_append]
    cases hfound : s.sections.lookup name with
    | some entries => rfl
    | none =>
      by_cases hname : name = opened
      · rw [hname, List.lookup_cons_self]
        rfl
      · rw [lookup_cons_of_ne hname]
        rfl

theorem get?_assign (s : Settings) (name' key' value name key : String) :
    (s.set name' key' value).get? name key =
      if name' = name ∧ key' = key then some value else s.get? name key := by
  rw [get?, sectionOf, Settings.set, section?, lookup_assign]
  by_cases hname : name = name'
  · rw [if_pos hname, Option.getD_some, lookup_assign, get?, hname]
    by_cases hkey : key = key'
    · rw [if_pos hkey, if_pos ⟨rfl, hkey.symm⟩]
    · rw [if_neg hkey, if_neg fun h => hkey h.2.symm]
  · rw [if_neg hname, if_neg fun h => hname h.1.symm]
    rfl

theorem get?_apply (s : Settings) (e : Edit) (name key : String) :
    (e.apply s).get? name key = (e.value? name key).or (s.get? name key) := by
  cases e with
  | opening opened => exact get?_openSection s opened name key
  | assigning name' key' value =>
    rw [Edit.apply, get?_assign, Edit.value?]
    split <;> rfl

/-- The sections behind edits are those before them and those that the edits are about. -/
theorem section?_foldl_isSome (E : List Edit) (s : Settings) (other : String) :
    ((E.foldl Edit.apply s).section? other).isSome ↔
      other ∈ E.map Edit.name ∨ (s.section? other).isSome := by
  induction E generalizing s with
  | nil => simp
  | cons e E ih =>
    rw [List.foldl_cons, ih, section?_apply_isSome, List.map_cons, List.mem_cons, or_left_comm, or_assoc]

/-- A key has the value that the edits give to it last, or the one it had before. -/
theorem get?_foldl (E : List Edit) (s : Settings) (name key : String) :
    (E.foldl Edit.apply s).get? name key = (lastAssigned? E name key).or (s.get? name key) := by
  induction E generalizing s with
  | nil => rfl
  | cons e E ih =>
    rw [List.foldl_cons, ih, get?_apply, ← Option.or_assoc, lastAssigned?, lastAssigned?,
      List.reverse_cons, List.findSome?_append]
    simp

end Edits

/-! ### Lines without a fault -/

/-- A line that can be read in the section `current`. -/
structure Readable (current : String) (raw : List Char) : Prop where
  short : Text.byteLength raw ≤ maxLine
  meaningful : lineKind raw ≠ .junk
  inside : current = "" → ∀ key value, lineKind raw ≠ .pair key value

/-- Lines that can be read one after another from the section `current` on. -/
def AllReadable (current : String) : List (List Char) → Prop
  | [] => True
  | raw :: rest => Readable current raw ∧ AllReadable (sectionBehind current (lineKind raw)) rest

def lastSection (current : String) (lines : List (List Char)) : String :=
  lines.foldl (fun name raw => sectionBehind name (lineKind raw)) current

section Lines

variable {s : Settings} {current : String} {n : Nat} {raw : List Char} {front lines : List (List Char)}

theorem edits_append (current : String) (front lines : List (List Char)) :
    edits current (front ++ lines) = edits current front ++ edits (lastSection current front) lines := by
  induction front generalizing current with
  | nil => rfl
  | cons raw front ih => rw [List.cons_append, edits, edits, ih, List.append_assoc]; rfl

theorem allReadable_append :
    AllReadable current (front ++ lines) ↔
      AllReadable current front ∧ AllReadable (lastSection current front) lines := by
  induction front generalizing current with
  | nil => exact (and_iff_right trivial).symm
  | cons raw front ih =>
    rw [List.cons_append, AllReadable, AllReadable, ih, and_assoc]
    rfl

/-- A line that can be read does its edits, and reading goes on. -/
theorem readLines_of_readable (h : Readable current raw) (s : Settings) (n : Nat) :
    s.readLines current n (raw :: lines) =
      ((editsOfLine current (lineKind raw)).foldl Edit.apply s).readLines
        (sectionBehind current (lineKind raw)) (n + 1) lines := by
  have hshort : ¬ maxLine < Text.byteLength raw := Nat.not_lt.mpr h.short
  cases hkind : lineKind raw with
  | nothing =>
    unfold lineKind at hkind
    simp only [readLines, if_neg hshort, hkind]
    rfl
  | header name =>
    unfold lineKind at hkind
    simp only [readLines, if_neg hshort, hkind]
    rfl
  | junk => exact absurd hkind h.meaningful
  | pair key value =>
    have hnamed : ¬ current.isEmpty = true := fun hempty =>
      h.inside (String.isEmpty_iff.mp hempty) key value hkind
    unfold lineKind at hkind
    simp only [readLines, if_neg hshort, hkind, if_neg hnamed]
    rfl

theorem readable_of_readLines (h : (s.readLines current n (raw :: lines)).2 = none) :
    Readable current raw := by
  rw [readLines] at h
  split at h
  · cases h
  · next hshort =>
    refine ⟨Nat.le_of_not_lt hshort, fun hjunk => ?_, fun houtside key value hpair => ?_⟩
    · unfold lineKind at hjunk
      simp only [hjunk] at h
      cases h
    · unfold lineKind at hpair
      simp only [hpair, houtside] at h
      cases h

/-- Reading meets no fault exactly where all lines can be read, and carries their edits out. -/
theorem readLines_of_allReadable (h : AllReadable current lines) (s : Settings) (n : Nat) :
    s.readLines current n lines = ((edits current lines).foldl Edit.apply s, none) := by
  induction lines generalizing current s n with
  | nil => rfl
  | cons raw rest ih => rw [readLines_of_readable h.1, ih h.2, edits, List.foldl_append]

theorem allReadable_of_readLines (h : (s.readLines current n lines).2 = none) :
    AllReadable current lines := by
  induction lines generalizing current s n with
  | nil => trivial
  | cons raw rest ih =>
    have hraw := readable_of_readLines h
    rw [readLines_of_readable hraw] at h
    exact ⟨hraw, ih h⟩

/-- Lines that can be read outside of all sections are read in any section to the same effect: what they
assign stands behind a header of their own. -/
theorem allReadable_anywhere (h : AllReadable "" lines) (current : String) :
    AllReadable current lines ∧ edits current lines = edits "" lines := by
  induction lines with
  | nil => exact ⟨trivial, rfl⟩
  | cons raw rest ih =>
    obtain ⟨hraw, hrest⟩ := h
    rw [AllReadable, edits, edits]
    cases hkind : lineKind raw with
    | nothing =>
      rw [hkind] at hrest
      obtain ⟨hreadable, hedits⟩ := ih hrest
      exact ⟨⟨⟨hraw.short, hraw.meaningful, fun _ => hraw.inside rfl⟩, hreadable⟩, hedits⟩
    | header name =>
      rw [hkind] at hrest
      exact ⟨⟨⟨hraw.short, hraw.meaningful, fun _ => hraw.inside rfl⟩, hrest⟩, rfl⟩
    | pair key value => exact absurd hkind (hraw.inside rfl key value)
    | junk => exact absurd hkind hraw.meaningful

end Lines

/-! ### Texts -/

theorem parse_eq_ok_iff {text : String} {s : Settings} :
    parse text = .ok s ↔ AllReadable "" (rawLines text.toList) ∧ s = (editsOf text).foldl Edit.apply {} := by
  constructor
  · intro h
    unfold parse at h
    split at h
    · next s' hmerge =>
      cases h
      have hreadable : AllReadable "" (rawLines text.toList) :=
        allReadable_of_readLines (congrArg Prod.snd hmerge)
      rw [merge, readLines_of_allReadable hreadable] at hmerge
      exact ⟨hreadable, (congrArg Prod.fst hmerge).symm⟩
    · cases h
  · rintro ⟨hreadable, rfl⟩
    rw [parse, merge, readLines_of_allReadable hreadable]
    rfl

theorem splitAt_eq_rawLines (cs : List Char) :
    ∃ blank, Text.splitAt '\n' cs = rawLines cs ++ blank ∧ ∀ raw ∈ blank, raw = [] := by
  unfold rawLines
  simp only
  split
  · next hlast =>
    refine ⟨[[]], ?_, fun raw hraw => List.mem_singleton.mp hraw⟩
    exact (List.dropLast_append_getLast? [] hlast).symm
  · exact ⟨[], (List.append_nil _).symm, fun raw hraw => absurd hraw List.not_mem_nil⟩

/-- The lines of two texts with a line break between them, but for a blank line that may stand there. -/
theorem rawLines_append_newline (cs ds : List Char) :
    ∃ blank, rawLines (cs ++ '\n' :: ds) = rawLines cs ++ (blank ++ rawLines ds) ∧
      ∀ raw ∈ blank, raw = [] := by
  obtain ⟨blank, hblank, hnil⟩ := splitAt_eq_rawLines cs
  refine ⟨blank, ?_, hnil⟩
  have hsplit := Text.splitAt_append '\n' cs ds
  rw [← List.append_assoc, ← hblank]
  unfold rawLines
  simp only [hsplit, List.getLast?_append_of_ne_nil _ (Text.splitAt_ne_nil '\n' ds)]
  split
  · rw [List.dropLast_append_of_ne_nil (Text.splitAt_ne_nil '\n' ds)]
  · rfl

theorem allReadable_blank {blank : List (List Char)} (h : ∀ raw ∈ blank, raw = []) (current : String) :
    AllReadable current blank ∧ edits current blank = [] ∧ lastSection current blank = current := by
  induction blank with
  | nil => exact ⟨trivial, rfl, rfl⟩
  | cons raw rest ih =>
    have hraw : raw = [] := h raw List.mem_cons_self
    subst hraw
    obtain ⟨hreadable, hedits, hlast⟩ := ih fun raw hraw => h raw (List.mem_cons_of_mem _ hraw)
    have hkind : lineKind [] = .nothing := rfl
    refine ⟨⟨⟨by decide, by rw [hkind]; simp, fun _ key value => by rw [hkind]; simp⟩, ?_⟩, ?_, ?_⟩
    · rw [hkind]
      exact hreadable
    · rw [edits, hkind]
      exact hedits
    · exact hlast

theorem editsOf_append {base override : String} (hbase : AllReadable "" (rawLines base.toList))
    (hover : AllReadable "" (rawLines override.toList)) :
    AllReadable "" (rawLines (base ++ "\n" ++ override).toList) ∧
      editsOf (base ++ "\n" ++ override) = editsOf base ++ editsOf override := by
  obtain ⟨blank, hlines, hnil⟩ := rawLines_append_newline base.toList override.toList
  have hwhole : rawLines (base ++ "\n" ++ override).toList =
      rawLines base.toList ++ (blank ++ rawLines override.toList) := by
    rw [← hlines, String.toList_append, String.toList_append, List.append_assoc]
    rfl
  obtain ⟨hblank, hnone, hlast⟩ := allReadable_blank hnil (lastSection "" (rawLines base.toList))
  obtain ⟨hreadable, hedits⟩ := allReadable_anywhere hover (lastSection "" (rawLines base.toList))
  rw [editsOf, hwhole]
  constructor
  · rw [allReadable_append, allReadable_append, hlast]
    exact ⟨hbase, hblank, hreadable⟩
  · rw [edits_append, edits_append, hlast, hnone, hedits]
    rfl

/-- Settings that come from a file and a local file on top of it: `s` and `t` are what the files say on
their own, and `u` is what they say together. -/
structure Overridden (base override : String) (s t u : Settings) : Prop where
  merged : s.merge override = (u, none)
  layered : loadLayered (some base) (some override) = .ok ⟨u, true, some base⟩
  asOne : parse (base ++ "\n" ++ override) = .ok u
  sections : ∀ name, (u.section? name).isSome ↔ (s.section? name).isSome ∨ (t.section? name).isSome
  assigned : ∀ name key, u.get? name key =
    (lastAssigned? (editsOf override) name key).or (lastAssigned? (editsOf base) name key)
  rightBiased : ∀ name key, u.get? name key = (t.get? name key).or (s.get? name key)
  kept : ∀ name key, (s.get? name key).isSome → (u.get? name key).isSome

/-- A local file that can be read overrides the settings key by key, and takes nothing away. -/
theorem overridden_of_parse {base override : String} {s t : Settings} (hbase : parse base = .ok s)
    (hover : parse override = .ok t) : ∃ u, Overridden base override s t u := by
  obtain ⟨hreadable, hs⟩ := parse_eq_ok_iff.mp hbase
  obtain ⟨hreadable', ht⟩ := parse_eq_ok_iff.mp hover
  obtain ⟨hboth, hedits⟩ := editsOf_append hreadable hreadable'
  have hmerged : s.merge override = ((editsOf override).foldl Edit.apply s, none) :=
    readLines_of_allReadable hreadable' s 1
  have hvalue : ∀ name key, ((editsOf override).foldl Edit.apply s).get? name key =
      (t.get? name key).or (s.get? name key) := fun name key => by
    rw [get?_foldl, ht, get?_foldl]
    exact congrArg (Option.or · _) (Option.or_none).symm
  refine ⟨(editsOf override).foldl Edit.apply s, hmerged, ?_, ?_, fun name => ?_, fun name key => ?_,
    hvalue, fun name key hsome => ?_⟩
  · rw [loadLayered, load, hbase]
    simp only [Except.map, hmerged]
  · exact parse_eq_ok_iff.mpr ⟨hboth, by rw [hedits, List.foldl_append, ← hs]⟩
  · rw [section?_foldl_isSome, ht, section?_foldl_isSome, or_comm]
    simp [section?]
  · rw [get?_foldl, hs, get?_foldl]
    exact congrArg (Option.or _) Option.or_none
  · rw [hvalue, Option.isSome_or, hsome, Bool.or_true]

theorem parse_reopened : parse "[Server]\nport=1\n[Debug]\nlog_level=INFO\n[Server]\nport=2" =
    .ok ⟨[("Server", [("port", "2")]), ("Debug", [("log_level", "INFO")])]⟩ := by cbv

theorem parse_logOnly : parse "[Debug]\nlog_level=WARN\n[TLS]\n" =
    .ok ⟨[("Debug", [("log_level", "WARN")]), ("TLS", [])]⟩ := by cbv

/-- A file that ends in one section, and a local file that starts with another. -/
theorem overridden_of_parse_reopened :
    parse "[Server]\nport=1\n[Debug]\nlog_level=INFO\n[Server]\nport=2" =
        .ok ⟨[("Server", [("port", "2")]), ("Debug", [("log_level", "INFO")])]⟩ ∧
      parse "[Debug]\nlog_level=WARN\n[TLS]\n" =
        .ok ⟨[("Debug", [("log_level", "WARN")]), ("TLS", [])]⟩ ∧
      ∃ u, Overridden "[Server]\nport=1\n[Debug]\nlog_level=INFO\n[Server]\nport=2"
        "[Debug]\nlog_level=WARN\n[TLS]\n"
        ⟨[("Server", [("port", "2")]), ("Debug", [("log_level", "INFO")])]⟩
        ⟨[("Debug", [("log_level", "WARN")]), ("TLS", [])]⟩ u :=
  ⟨parse_reopened, parse_logOnly, overridden_of_parse parse_reopened parse_logOnly⟩

end PocketBasic.Settings
