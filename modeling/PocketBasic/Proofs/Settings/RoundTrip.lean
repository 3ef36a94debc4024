import Mathlib
import PocketBasic.Proofs.Settings.Writable

/-!
# Settings survive being written

Settings that were read from a file are written to a file that is read without a fault, and gives the same
sections with the same keys and values. The sections without a fixed place may be written in any order.
-/

namespace PocketBasic.Settings

variable {s : Settings} {current name key value text : String} {n : Nat} {entries done : Section}
  {front sections : List (String × Section)} {rest : List (List Char)}

/-- The lines of a section with a blank line behind it. -/
def sectionLines (x : String × Section) : List (List Char) :=
  headerLine x.1 :: ((sortKeys x.2).map fun e => pairLine e.1 e.2) ++ [[]]

def preamble : List (List Char) :=
  ["; retrocalc configuration".toList, "; generated defaults, edit as needed".toList, []]

def fileLines (s : Settings) : List (List Char) := preamble ++ s.ordered.flatMap sectionLines

theorem toList_renderSection (name : String) (entries : Section) :
    (renderSection name entries).toList = (sectionLines (name, entries)).flatMap (· ++ ['\n']) := by
  simp [renderSection, sectionLines, headerLine, pairLine, String.toList_join, List.flatMap_map]

theorem toList_render (s : Settings) : s.render.toList = s.fileLines.flatMap (· ++ ['\n']) := by
  have hpreamble : "; retrocalc configuration\n; generated defaults, edit as needed\n\n".toList =
      preamble.flatMap (· ++ ['\n']) := by simp [preamble]
  unfold render fileLines
  rw [String.toList_append, hpreamble, String.toList_join, List.flatMap_map, List.flatMap_append,
    List.flatMap_assoc]
  congr 1
  exact List.flatMap_congr fun x _ => toList_renderSection x.1 x.2

theorem readLines_preamble :
    s.readLines current n (preamble ++ rest) = s.readLines current (n + 3) rest := rfl

theorem readLines_blank : s.readLines current n ([] :: rest) = s.readLines current (n + 1) rest := rfl

theorem readLines_header (hheader : Legible (headerLine name) (.header name)) :
    s.readLines current n (headerLine name :: rest) =
      (s.openSection name).readLines name (n + 1) rest := by
  have hkind := hheader.meaning
  unfold lineKind at hkind
  simp only [readLines, if_neg (Nat.not_lt.mpr hheader.short), hkind]

theorem readLines_pair (hpair : Legible (pairLine key value) (.pair key value)) (hname : current ≠ "") :
    s.readLines current n (pairLine key value :: rest) =
      (s.set current key value).readLines current (n + 1) rest := by
  have hkind := hpair.meaning
  have hopen : ¬ current.isEmpty = true := fun h => hname (String.isEmpty_iff.mp h)
  unfold lineKind at hkind
  simp only [readLines, if_neg (Nat.not_lt.mpr hpair.short), hkind, if_neg hopen]

theorem set_append (hfront : name ∉ front.map Prod.fst) (hkey : key ∉ done.map Prod.fst) :
    (Settings.mk (front ++ [(name, done)])).set name key value =
      ⟨front ++ [(name, done ++ [(key, value)])]⟩ := by
  have hdone : (Settings.mk (front ++ [(name, done)])).sectionOf name = done := by
    have hnone : front.lookup name = none := by
      rw [← Option.not_isSome_iff_eq_none, lookup_isSome_iff_mem]
      exact hfront
    rw [sectionOf, section?, List.lookup_append, hnone, List.lookup_cons_self]
    rfl
  rw [Settings.set, hdone, assign_of_not_mem hkey, assign_append_cons hfront]

theorem readLines_pairs (hfront : name ∉ front.map Prod.fst)
    (hdistinct : ((done ++ entries).map Prod.fst).Nodup)
    (hpairs : ∀ e ∈ entries, Legible (pairLine e.1 e.2) (.pair e.1 e.2))
    (hname : entries ≠ [] → name ≠ "") :
    (Settings.mk (front ++ [(name, done)])).readLines name n
        ((entries.map fun e => pairLine e.1 e.2) ++ rest) =
      (Settings.mk (front ++ [(name, done ++ entries)])).readLines name (n + entries.length) rest := by
  induction entries generalizing done n with
  | nil => rw [List.map_nil, List.nil_append, List.append_nil, List.length_nil, Nat.add_zero]
  | cons e entries ih =>
    have hkey : e.1 ∉ done.map Prod.fst := fun hmem => by
      rw [List.map_append, List.nodup_append] at hdistinct
      exact hdistinct.2.2 _ hmem _ List.mem_cons_self rfl
    have hnamed := hname (List.cons_ne_nil _ _)
    rw [List.map_cons, List.cons_append, readLines_pair (hpairs e List.mem_cons_self) hnamed,
      set_append hfront hkey]
    have hmore : done ++ e :: entries = done ++ [(e.1, e.2)] ++ entries := List.append_cons ..
    rw [hmore] at hdistinct ⊢
    rw [ih hdistinct (fun e' he' => hpairs e' (List.mem_cons_of_mem e he')) fun _ => hnamed,
      List.length_cons, Nat.add_assoc, Nat.add_comm 1]

theorem perm_sortKeys (entries : Section) : (sortKeys entries).Perm entries :=
  List.mergeSort_perm entries _

def sorted (x : String × Section) : String × Section := (x.1, sortKeys x.2)

theorem readLines_section (hsection : LegibleSection name entries) (hfront : name ∉ front.map Prod.fst) :
    ∃ m, (Settings.mk front).readLines current n (sectionLines (name, entries) ++ rest) =
      (Settings.mk (front ++ [sorted (name, entries)])).readLines name m rest := by
  have hperm := perm_sortKeys entries
  have hnone : (Settings.mk front).section? name = none := by
    rw [← Option.not_isSome_iff_eq_none, section?, lookup_isSome_iff_mem]
    exact hfront
  have hopened : (Settings.mk front).openSection name = ⟨front ++ [(name, [])]⟩ := by
    rw [openSection, hnone]
  refine ⟨n + 1 + (sortKeys entries).length + 1, ?_⟩
  rw [sectionLines, List.cons_append, List.cons_append, List.append_assoc,
    readLines_header hsection.header, hopened, readLines_pairs hfront, List.singleton_append,
    readLines_blank, List.nil_append, sorted]
  · rw [List.nil_append]
    exact (hperm.map Prod.fst).nodup_iff.mpr hsection.distinct
  · exact fun e he => hsection.pairs e (hperm.mem_iff.mp he)
  · refine fun hne => hsection.named fun hnil => hne ?_
    subst hnil
    exact hperm.eq_nil

theorem readLines_sections (hdistinct : ((front ++ sections).map Prod.fst).Nodup)
    (hsections : ∀ x ∈ sections, LegibleSection x.1 x.2) :
    (Settings.mk front).readLines current n (sections.flatMap sectionLines) =
      (⟨front ++ sections.map sorted⟩, none) := by
  induction sections generalizing front current n with
  | nil => rw [List.flatMap_nil, List.map_nil, List.append_nil, readLines]
  | cons x sections ih =>
    have hnew : x.1 ∉ front.map Prod.fst := fun hmem => by
      rw [List.map_append, List.nodup_append] at hdistinct
      exact hdistinct.2.2 _ hmem _ List.mem_cons_self rfl
    obtain ⟨m, hread⟩ : ∃ m, (Settings.mk front).readLines current n
        (sectionLines x ++ sections.flatMap sectionLines) =
          (Settings.mk (front ++ [sorted x])).readLines x.1 m (sections.flatMap sectionLines) :=
      readLines_section (hsections x List.mem_cons_self) hnew
    have hmore : front ++ sorted x :: sections.map sorted =
        front ++ [sorted x] ++ sections.map sorted := List.append_cons ..
    rw [List.flatMap_cons, hread, List.map_cons, hmore]
    refine ih ?_ fun y hy => hsections y (List.mem_cons_of_mem x hy)
    simpa only [List.map_append, List.map_cons, List.append_assoc, List.map_nil, sorted,
      List.singleton_append] using hdistinct

theorem Writable.perm (hs : s.Writable) (hperm : sections.Perm s.sections) :
    (Settings.mk sections).Writable where
  distinct := (hperm.map Prod.fst).nodup_iff.mpr hs.distinct
  legible x hx := hs.legible x (hperm.mem_iff.mp hx)

theorem mem_ordered_iff (hs : s.Writable) {x : String × Section} : x ∈ s.ordered ↔ x ∈ s.sections := by
  obtain ⟨name, entries⟩ := x
  have hfixed : (name, entries) ∈ sectionOrder.filterMap (fun name => (s.section? name).map (name, ·)) ↔
      name ∈ sectionOrder ∧ (name, entries) ∈ s.sections := by
    rw [List.mem_filterMap, ← lookup_eq_some_iff_mem hs.distinct]
    constructor
    · rintro ⟨name', hname', hsome⟩
      obtain ⟨entries', hentries, heq⟩ := Option.map_eq_some_iff.mp hsome
      cases heq
      exact ⟨hname', hentries⟩
    · rintro ⟨hname, hentries⟩
      exact ⟨name, hname, Option.map_eq_some_iff.mpr ⟨entries, hentries, rfl⟩⟩
  rw [ordered, List.mem_append, hfixed, List.mem_filter]
  by_cases hname : name ∈ sectionOrder <;> simp [hname]

theorem nodup_ordered (hs : s.Writable) : (s.ordered.map Prod.fst).Nodup := by
  have hname : ∀ {name : String} {x : String × Section},
      (s.section? name).map (name, ·) = some x → x.1 = name := fun hx => by
    obtain ⟨entries, -, rfl⟩ := Option.map_eq_some_iff.mp hx
    rfl
  have hfixed :
      ((sectionOrder.filterMap fun name => (s.section? name).map (name, ·)).map Prod.fst).Nodup := by
    rw [List.Nodup, List.pairwise_map, List.pairwise_filterMap]
    refine List.Pairwise.imp (fun hne x hx y hy heq => hne ?_) (by decide : sectionOrder.Nodup)
    rw [← hname hx, ← hname hy, heq]
  have hothers : ((s.sections.filter fun x => !sectionOrder.contains x.1).map Prod.fst).Nodup :=
    (List.filter_sublist.map Prod.fst).nodup hs.distinct
  unfold ordered
  rw [List.map_append]
  refine List.nodup_append.mpr ⟨hfixed, hothers, ?_⟩
  rintro a ha b hb rfl
  obtain ⟨x, hx, rfl⟩ := List.mem_map.mp ha
  obtain ⟨y, hy, hxy⟩ := List.mem_map.mp hb
  obtain ⟨name, hknown, hsome⟩ := List.mem_filterMap.mp hx
  rw [← hname hsome, ← hxy] at hknown
  have hunknown := (List.mem_filter.mp hy).2
  rw [Bool.not_eq_true', List.contains_eq_mem, decide_eq_false_iff_not] at hunknown
  exact hunknown hknown

/-- The settings as they come back from their file. -/
def arranged (s : Settings) : Settings := ⟨s.ordered.map sorted⟩

theorem keys_arranged (s : Settings) : s.arranged.sections.map Prod.fst = s.ordered.map Prod.fst := by
  rw [arranged, List.map_map]
  rfl

theorem newline_not_mem_fileLines (hs : s.Writable) : ∀ l ∈ s.fileLines, '\n' ∉ l := by
  intro l hl
  rcases List.mem_append.mp hl with hl | hl
  · have hplain : ∀ l ∈ preamble, '\n' ∉ l := by decide
    exact hplain l hl
  · obtain ⟨⟨name, entries⟩, hx, hl⟩ := List.mem_flatMap.mp hl
    have hsection := hs.legible _ ((mem_ordered_iff hs).mp hx)
    rcases List.mem_cons.mp hl with rfl | hl
    · exact hsection.header.unbroken
    · rcases List.mem_append.mp hl with hl | hl
      · obtain ⟨e, he, rfl⟩ := List.mem_map.mp hl
        exact (hsection.pairs e ((perm_sortKeys entries).mem_iff.mp he)).unbroken
      · rw [List.mem_singleton.mp hl]
        exact List.not_mem_nil

theorem rawLines_render (hs : s.Writable) : rawLines s.render.toList = s.fileLines := by
  unfold rawLines
  rw [toList_render, Text.splitAt_flatMap (newline_not_mem_fileLines hs)]
  simp only [List.getLast?_concat, if_true, List.dropLast_concat]

theorem parse_render (hs : s.Writable) : parse s.render = .ok s.arranged := by
  have hread : ({} : Settings).merge s.render = (s.arranged, none) := by
    rw [merge, rawLines_render hs, fileLines, readLines_preamble]
    exact readLines_sections (nodup_ordered hs) fun x hx => hs.legible x ((mem_ordered_iff hs).mp hx)
  rw [parse, hread]

/-- The same sections with the same keys and values, in whatever order they are listed. -/
def Same (s t : Settings) : Prop :=
  ∀ name, (s.section? name).isSome = (t.section? name).isSome ∧
    ∀ key, s.get? name key = t.get? name key

theorem Same.trans {t u : Settings} (h : s.Same t) (h' : t.Same u) : s.Same u := fun name =>
  ⟨(h name).1.trans (h' name).1, fun key => ((h name).2 key).trans ((h' name).2 key)⟩

/-- The order of the entries does not matter where no key occurs twice. -/
theorem lookup_congr {α : Type} {l l' : List (String × α)} (h : (l.map Prod.fst).Nodup)
    (h' : (l'.map Prod.fst).Nodup) (hmem : ∀ e, e ∈ l ↔ e ∈ l') (k : String) :
    l.lookup k = l'.lookup k := by
  ext v
  rw [lookup_eq_some_iff_mem h, lookup_eq_some_iff_mem h', hmem]

theorem same_perm (hs : s.Writable) (hperm : sections.Perm s.sections) :
    (Settings.mk sections).Same s := by
  have hsection : ∀ name, (Settings.mk sections).section? name = s.section? name :=
    lookup_congr (hs.perm hperm).distinct hs.distinct fun x => hperm.mem_iff
  intro name
  unfold get? sectionOf
  rw [hsection]
  exact ⟨rfl, fun key => rfl⟩

theorem section?_arranged (hs : s.Writable) (name : String) :
    s.arranged.section? name = (s.section? name).map sortKeys := by
  have hdistinct : (s.arranged.sections.map Prod.fst).Nodup := keys_arranged s ▸ nodup_ordered hs
  ext entries
  rw [section?, lookup_eq_some_iff_mem hdistinct, arranged, List.mem_map, Option.map_eq_some_iff]
  simp only [section?, lookup_eq_some_iff_mem hs.distinct]
  constructor
  · rintro ⟨⟨name', entries'⟩, hx, heq⟩
    cases heq
    exact ⟨entries', (mem_ordered_iff hs).mp hx, rfl⟩
  · rintro ⟨entries', hx, rfl⟩
    exact ⟨(name, entries'), (mem_ordered_iff hs).mpr hx, rfl⟩

theorem same_arranged (hs : s.Writable) : s.arranged.Same s := by
  intro name
  unfold get? sectionOf
  rw [section?_arranged hs]
  cases hentries : s.section? name with
  | none => exact ⟨rfl, fun key => rfl⟩
  | some entries =>
    refine ⟨rfl, fun key => ?_⟩
    have hperm := perm_sortKeys entries
    have hdistinct := (hs.legible _ ((lookup_eq_some_iff_mem hs.distinct).mp hentries)).distinct
    exact lookup_congr ((hperm.map Prod.fst).nodup_iff.mpr hdistinct) hdistinct
      (fun e => hperm.mem_iff) key

theorem writable_of_load {file : Option String} {stored : Stored} (h : load file = .ok stored) :
    stored.settings.Writable ∧ stored.hasFile = true := by
  cases file with
  | none =>
    cases h
    exact ⟨writable_defaults, rfl⟩
  | some text =>
    simp only [load] at h
    cases hparse : parse text with
    | error e =>
      rw [hparse] at h
      cases h
    | ok s =>
      rw [hparse] at h
      cases h
      exact ⟨writable_of_parse hparse, rfl⟩

/-- Settings that were loaded, or made up because there was no file, are written out in full when they are
saved, and the written text is read without a fault and gives them back. The sections without a fixed place
are written in the order in which they are listed, which may be any. -/
theorem load_save {file : Option String} {stored : Stored} (hload : load file = .ok stored)
    (hperm : sections.Perm stored.settings.sections) :
    Stored.save { stored with settings := ⟨sections⟩ } =
        .ok ⟨⟨sections⟩, true, some (Settings.mk sections).render⟩ ∧
      ∃ again, parse (Settings.mk sections).render = .ok again ∧
        load (some (Settings.mk sections).render) =
          .ok ⟨again, true, some (Settings.mk sections).render⟩ ∧
        again.Same stored.settings := by
  obtain ⟨hwritable, hfile⟩ := writable_of_load hload
  have hreordered : (Settings.mk sections).Writable := hwritable.perm hperm
  have hparse := parse_render hreordered
  refine ⟨?_, (Settings.mk sections).arranged, hparse, ?_, ?_⟩
  · rw [Stored.save, hfile, if_pos rfl]
  · simp only [load, hparse, Except.map]
  · exact (same_arranged hreordered).trans (same_perm hwritable hperm)

/-- A file with an empty key, an empty value, a value with an equals sign, an empty section and a name
with brackets. -/
def oddFile : String := "[ B ]\n a = 1 = 2 \n=x\ny=\n[[A]]\n"

def oddSections : List (String × Section) := [("B", [("a", "1 = 2"), ("", "x"), ("y", "")]), ("[A]", [])]

theorem load_oddFile : load (some oddFile) = .ok ⟨⟨oddSections⟩, true, some oddFile⟩ := by cbv

theorem load_save_oddFile :
    load (some oddFile) = .ok ⟨⟨oddSections⟩, true, some oddFile⟩ ∧
      oddSections.reverse.Perm oddSections ∧
      Stored.save ⟨⟨oddSections.reverse⟩, true, some oddFile⟩ =
        .ok ⟨⟨oddSections.reverse⟩, true, some (Settings.mk oddSections.reverse).render⟩ ∧
      ∃ again, parse (Settings.mk oddSections.reverse).render = .ok again ∧
        load (some (Settings.mk oddSections.reverse).render) =
          .ok ⟨again, true, some (Settings.mk oddSections.reverse).render⟩ ∧
        again.Same ⟨oddSections⟩ :=
  ⟨load_oddFile, oddSections.reverse_perm, load_save load_oddFile oddSections.reverse_perm⟩

end PocketBasic.Settings
