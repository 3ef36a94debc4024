import Mathlib
import PocketBasic.Library.CatalogDocument
import PocketBasic.Proofs.Library.History

/-!
# Seeding a library

Seeding adds one program for every name that is missing: the first draft of the name that compiles. What is
stored already stays as it is, and what has been added is found when the same drafts come again, so seeding
twice is seeding once. The drafts of a catalog have names in their form, no two of them the same.
-/

namespace PocketBasic.Library

def Draft.compiles (d : Draft) : Bool := (Program.compile d.source).isOk

def firstOf? (name : String) (ds : List Draft) : Option Draft :=
  ds.find? fun d => normalize? d.name = some name && d.compiles

variable {s : Store} {d : Draft} {ds : List Draft} {name : String} {now : Int} {items : List Item}
  {item : Item} {program : Program} {fault : Fault}

theorem compiles_of_ok (h : Program.compile d.source = .ok program) : d.compiles = true := by
  rw [Draft.compiles, h]
  rfl

theorem compiles_of_error (h : Program.compile d.source = .error fault) : d.compiles = false := by
  rw [Draft.compiles, h]
  rfl

theorem firstOf?_cons_self (hname : normalize? d.name = some name) (h : d.compiles = true) :
    firstOf? name (d :: ds) = some d :=
  List.find?_cons_of_pos (by simp [hname, h])

theorem firstOf?_cons_of_ne {other : String} (hname : normalize? d.name = some name)
    (hne : other ≠ name) : firstOf? other (d :: ds) = firstOf? other ds :=
  List.find?_cons_of_neg (by simp [hname, hne.symm])

theorem firstOf?_cons_of_fault (h : d.compiles = false) (other : String) :
    firstOf? other (d :: ds) = firstOf? other ds :=
  List.find?_cons_of_neg (by simp [h])

namespace Store

/-! ### One draft -/

theorem seed_of_stored (hopen : s.closed = false) (hname : normalize? d.name = some name)
    (hfind : s.find? name = some item) (now : Int) (ds : List Draft) :
    s.seed now (d :: ds) = s.seed now ds := by
  have hget := get_of_name hopen hname
  rw [hfind] at hget
  rw [seed_eq, hget]

theorem seed_of_fault (hopen : s.closed = false) (hname : normalize? d.name = some name)
    (hfind : s.find? name = none) (hcompile : Program.compile d.source = .error fault) (now : Int)
    (ds : List Draft) : s.seed now (d :: ds) = s.seed now ds := by
  have hget := get_of_name hopen hname
  rw [hfind] at hget
  rw [seed_eq, hget, save_of_fault hname hcompile]

theorem seed_of_missing (hopen : s.closed = false) (hname : normalize? d.name = some name)
    (hfind : s.find? name = none) (hcompile : Program.compile d.source = .ok program) (now : Int)
    (ds : List Draft) : s.seed now (d :: ds) =
      let rest := (s.put name d now).1.seed now ds
      (rest.1, rest.2.1 + 1, rest.2.2) := by
  have hget := get_of_name hopen hname
  rw [hfind] at hget
  rw [seed_eq, hget, save_of_name hopen hname hcompile]

theorem seed_of_closed (hclosed : s.closed = true) (hnames : ∀ d ∈ ds, (normalize? d.name).isSome) :
    ∃ e, (∀ now, s.seed now ds = (s, 0, e)) ∧ ∀ bad, e ≠ some (.invalidName bad) := by
  cases ds with
  | nil => exact ⟨none, fun now => rfl, fun bad => (Option.some_ne_none _).symm⟩
  | cons d ds =>
    obtain ⟨name, hname⟩ := Option.isSome_iff_exists.mp (hnames d List.mem_cons_self)
    have hget : s.get d.name = .error (.unavailable (.load name)) := by
      simp only [get, checkName, hname, hclosed]
      rfl
    refine ⟨some (.unavailable (.load name)), fun now => ?_, fun bad h => ?_⟩
    · rw [seed_eq, hget]
    · cases h

/-! ### All drafts -/

/-- What drafts add to a store: one program for every missing name of which a draft compiles. -/
structure Additions (s : Store) (now : Int) (ds : List Draft) (items : List Item) : Prop where
  once : (items.map (·.name)).Nodup
  first : ∀ item ∈ items, s.find? item.name = none ∧ ∃ d, firstOf? item.name ds = some d ∧
    item = ⟨item.id, item.name, d.description, d.source, now, now⟩
  all : ∀ name d, s.find? name = none → firstOf? name ds = some d → name ∈ items.map (·.name)

theorem additions_nil (s : Store) (now : Int) : s.Additions now [] [] where
  once := List.nodup_nil
  first _ hi := absurd hi List.not_mem_nil
  all _ _ _ h := by cases h

theorem Additions.of_stored (h : s.Additions now ds items) (hname : normalize? d.name = some name)
    (hfind : s.find? name = some item) : s.Additions now (d :: ds) items := by
  have hne : ∀ other, s.find? other = none → other ≠ name := fun other hmissing heq => by
    rw [heq, hfind] at hmissing
    cases hmissing
  refine ⟨h.once, fun i hi => ?_, fun other d' hmissing hfirst => ?_⟩
  · obtain ⟨hmissing, hfirst⟩ := h.first i hi
    rw [firstOf?_cons_of_ne hname (hne i.name hmissing)]
    exact ⟨hmissing, hfirst⟩
  · rw [firstOf?_cons_of_ne hname (hne other hmissing)] at hfirst
    exact h.all other d' hmissing hfirst

theorem Additions.of_fault (h : s.Additions now ds items) (hfault : d.compiles = false) :
    s.Additions now (d :: ds) items where
  once := h.once
  first i hi := by
    rw [firstOf?_cons_of_fault hfault]
    exact h.first i hi
  all other d' hmissing hfirst := by
    rw [firstOf?_cons_of_fault hfault] at hfirst
    exact h.all other d' hmissing hfirst

/-- The item for a draft of a missing name. -/
def newItem (s : Store) (name : String) (d : Draft) (now : Int) : Item :=
  ⟨s.nextId, name, d.description, d.source, now, now⟩

theorem items_put_of_none (hfind : s.find? name = none) (d : Draft) (now : Int) :
    (s.put name d now).1.items = s.items ++ [s.newItem name d now] := by
  rw [put_of_none hfind]
  rfl

theorem find?_of_append {s' : Store} (h : s'.items = s.items ++ items) (name : String) :
    s'.find? name = (s.find? name).or (items.find? (·.name = name)) := by
  rw [find?, h, List.find?_append]
  rfl

theorem Additions.of_missing (h : (s.put name d now).1.Additions now ds items)
    (hname : normalize? d.name = some name) (hfind : s.find? name = none)
    (hcompiles : d.compiles = true) :
    s.Additions now (d :: ds) (s.newItem name d now :: items) := by
  have hput : ∀ other, (s.put name d now).1.find? other =
      (s.find? other).or ([s.newItem name d now].find? (·.name = other)) :=
    find?_of_append (items_put_of_none hfind d now)
  have hself : ((s.put name d now).1.find? name).isSome := by
    rw [hput, hfind]
    simp [newItem]
  have hothers : ∀ other, other ≠ name → (s.put name d now).1.find? other = s.find? other :=
    fun other hne => by
      rw [hput]
      simp [newItem, hne.symm]
  have hne : ∀ i ∈ items, i.name ≠ name := fun i hi hsame => by
    have hmissing := (h.first i hi).1
    rw [hsame] at hmissing
    rw [hmissing] at hself
    cases hself
  refine ⟨?_, fun i hi => ?_, fun other d' hmissing hfirst => ?_⟩
  · rw [List.map_cons, List.nodup_cons]
    refine ⟨fun hmem => ?_, h.once⟩
    obtain ⟨i, hi, heq⟩ := List.mem_map.mp hmem
    exact hne i hi heq
  · rcases List.mem_cons.mp hi with rfl | hi
    · exact ⟨hfind, d, firstOf?_cons_self hname hcompiles, rfl⟩
    · obtain ⟨hmissing, hfirst⟩ := h.first i hi
      rw [hothers i.name (hne i hi)] at hmissing
      rw [firstOf?_cons_of_ne hname (hne i hi)]
      exact ⟨hmissing, hfirst⟩
  · by_cases hother : other = name
    · rw [hother]
      exact List.mem_cons_self
    · rw [firstOf?_cons_of_ne hname hother] at hfirst
      rw [← hothers other hother] at hmissing
      exact List.mem_cons_of_mem _ (h.all other d' hmissing hfirst)

theorem seed_adds (hopen : s.closed = false) (hnames : ∀ d ∈ ds, (normalize? d.name).isSome) (now : Int) :
    ∃ items s', s.seed now ds = (s', items.length, none) ∧ s'.items = s.items ++ items ∧
      s'.closed = false ∧ s.Additions now ds items := by
  induction ds generalizing s with
  | nil => exact ⟨[], s, rfl, (List.append_nil _).symm, hopen, additions_nil s now⟩
  | cons d ds ih =>
    obtain ⟨name, hname⟩ := Option.isSome_iff_exists.mp (hnames d List.mem_cons_self)
    have hrest : ∀ d' ∈ ds, (normalize? d'.name).isSome := fun d' hd' =>
      hnames d' (List.mem_cons_of_mem d hd')
    cases hfind : s.find? name with
    | some item =>
      obtain ⟨items, s', hseed, hitems, hopen', hadded⟩ := ih hopen hrest
      refine ⟨items, s', ?_, hitems, hopen', hadded.of_stored hname hfind⟩
      rw [seed_of_stored hopen hname hfind, hseed]
    | none =>
      cases hcompile : Program.compile d.source with
      | error fault =>
        obtain ⟨items, s', hseed, hitems, hopen', hadded⟩ := ih hopen hrest
        refine ⟨items, s', ?_, hitems, hopen', hadded.of_fault (compiles_of_error hcompile)⟩
        rw [seed_of_fault hopen hname hfind hcompile, hseed]
      | ok program =>
        obtain ⟨items, s', hseed, hitems, hopen', hadded⟩ :=
          ih ((closed_put s name d now).trans hopen) hrest
        refine ⟨s.newItem name d now :: items, s', ?_, ?_, hopen',
          hadded.of_missing hname hfind (compiles_of_ok hcompile)⟩
        · rw [seed_of_missing hopen hname hfind hcompile, hseed]
          rfl
        · rw [hitems, items_put_of_none hfind, List.append_assoc]
          rfl

theorem seed_of_known (hopen : s.closed = false) (hnames : ∀ d ∈ ds, ∃ name,
      normalize? d.name = some name ∧ (d.compiles = true → (s.find? name).isSome)) (now : Int) :
    s.seed now ds = (s, 0, none) := by
  induction ds with
  | nil => rfl
  | cons d ds ih =>
    obtain ⟨name, hname, hknown⟩ := hnames d List.mem_cons_self
    have hrest := ih fun d' hd' => hnames d' (List.mem_cons_of_mem d hd')
    cases hfind : s.find? name with
    | some item => rw [seed_of_stored hopen hname hfind, hrest]
    | none =>
      cases hcompile : Program.compile d.source with
      | error fault => rw [seed_of_fault hopen hname hfind hcompile, hrest]
      | ok program =>
        have hsome := hknown (compiles_of_ok hcompile)
        rw [hfind] at hsome
        cases hsome

/-- What a seed leaves in the store and answers. -/
structure Seeded (s : Store) (now : Int) (ds : List Draft) : Prop where
  kept : ∀ name item, s.find? name = some item → (s.seed now ds).1.find? name = some item
  added : s.closed = false →
    ∃ items, (s.seed now ds).1.items = s.items ++ items ∧ s.Additions now ds items
  number : (s.seed now ds).1.items.length = s.items.length + (s.seed now ds).2.1
  again : ∀ now', (s.seed now ds).1.seed now' ds = ((s.seed now ds).1, 0, (s.seed now ds).2.2)
  answered : s.closed = false → (s.seed now ds).2.2 = none
  named : ∀ bad, (s.seed now ds).2.2 ≠ some (.invalidName bad)

theorem seeded_of_closed (hclosed : s.closed = true) (hnames : ∀ d ∈ ds, (normalize? d.name).isSome)
    (now : Int) : s.Seeded now ds := by
  obtain ⟨e, hseed, hnamed⟩ := seed_of_closed hclosed hnames
  constructor
  · intro name item hfind
    rw [hseed]
    exact hfind
  · exact fun hopen => absurd (hclosed.symm.trans hopen) (by decide)
  · rw [hseed]
    rfl
  · intro now'
    rw [hseed, hseed]
  · exact fun hopen => absurd (hclosed.symm.trans hopen) (by decide)
  · rw [hseed]
    exact hnamed

theorem seeded_of_open (hopen : s.closed = false) (hnames : ∀ d ∈ ds, (normalize? d.name).isSome)
    (now : Int) : s.Seeded now ds := by
  obtain ⟨items, s', hseed, hitems, hopen', hadded⟩ := seed_adds hopen hnames now
  have hfound : ∀ name, s'.find? name = (s.find? name).or (items.find? (·.name = name)) :=
    find?_of_append hitems
  constructor
  · intro name item hfind
    rw [hseed, hfound, hfind]
    rfl
  · intro _
    rw [hseed]
    exact ⟨items, hitems, hadded⟩
  · rw [hseed, hitems, List.length_append]
  · intro now'
    rw [hseed]
    refine seed_of_known hopen' (fun d hd => ?_) now'
    obtain ⟨name, hname⟩ := Option.isSome_iff_exists.mp (hnames d hd)
    refine ⟨name, hname, fun hcompiles => ?_⟩
    rw [hfound, Option.isSome_or]
    cases hfind : s.find? name with
    | some item => rfl
    | none =>
      have hfirst : (firstOf? name ds).isSome := by
        rw [firstOf?, List.find?_isSome]
        exact ⟨d, hd, by simp [hname, hcompiles]⟩
      obtain ⟨d', hd'⟩ := Option.isSome_iff_exists.mp hfirst
      obtain ⟨i, hi, hiname⟩ := List.mem_map.mp (hadded.all name d' hfind hd')
      rw [Bool.or_eq_true, List.find?_isSome]
      exact .inr ⟨i, hi, decide_eq_true hiname⟩
  · intro _
    rw [hseed]
  · rw [hseed]
    exact fun bad => (Option.some_ne_none _).symm

theorem seeded (hnames : ∀ d ∈ ds, (normalize? d.name).isSome) (s : Store) (now : Int) :
    s.Seeded now ds := by
  cases hstate : s.closed with
  | true => exact seeded_of_closed hstate hnames now
  | false => exact seeded_of_open hstate hnames now

end Store

/-- The drafts of a catalog have names in their form, all of them different. -/
theorem names_of_drafts {seen : List String} {i : Nat} {es : List Catalog.Entry}
    (h : Catalog.drafts seen i es = .ok ds) :
    (∀ d ∈ ds, normalize? d.name = some d.name ∧ d.name ∉ seen) ∧ (ds.map (·.name)).Nodup := by
  induction es generalizing seen i ds with
  | nil =>
    cases h
    exact ⟨fun d hd => absurd hd List.not_mem_nil, List.nodup_nil⟩
  | cons e es ih =>
    unfold Catalog.drafts at h
    split at h
    · cases h
    · next name hname =>
      split at h
      · cases h
      · next hnew =>
        cases hrest : Catalog.drafts (name :: seen) (i + 1) es with
        | error e' =>
          rw [hrest] at h
          cases h
        | ok ds' =>
          rw [hrest] at h
          cases h
          obtain ⟨hnames, hdistinct⟩ := ih hrest
          refine ⟨fun d hd => ?_, ?_⟩
          · rcases List.mem_cons.mp hd with rfl | hd
            · exact ⟨normalize?_idem hname, by simpa using hnew⟩
            · obtain ⟨hnormal, hfresh⟩ := hnames d hd
              exact ⟨hnormal, fun hmem => hfresh (List.mem_cons_of_mem name hmem)⟩
          · rw [List.map_cons, List.nodup_cons]
            refine ⟨fun hmem => ?_, hdistinct⟩
            obtain ⟨d, hd, hdname⟩ := List.mem_map.mp hmem
            exact (hnames d hd).2 (hdname ▸ List.mem_cons_self)

theorem names_of_parse {read : Catalog.Reader} {text : String} (h : Catalog.parse read text = .ok ds) :
    (∀ d ∈ ds, normalize? d.name = some d.name) ∧ (ds.map (·.name)).Nodup := by
  unfold Catalog.parse at h
  split at h
  · cases h
  · obtain ⟨hnames, hdistinct⟩ := names_of_drafts h
    exact ⟨fun d hd => (hnames d hd).1, hdistinct⟩

/-- Seeding keeps what is stored, adds the first draft that compiles of each missing name, and does nothing
the second time. The drafts of a catalog never stop it for their names. -/
theorem seeded_and_catalog_named :
    (∀ (s : Store) (now : Int) (ds : List Draft), (∀ d ∈ ds, (normalize? d.name).isSome) →
      s.Seeded now ds) ∧
    (∀ (read : Catalog.Reader) (text : String) (ds : List Draft), Catalog.parse read text = .ok ds →
      (∀ d ∈ ds, normalize? d.name = some d.name) ∧ (ds.map (·.name)).Nodup ∧
        ∀ (s : Store) (now : Int) (bad : String), (s.seed now ds).2.2 ≠ some (.invalidName bad)) := by
  refine ⟨fun s now ds hnames => Store.seeded hnames s now, fun read text ds hparse => ?_⟩
  obtain ⟨hnames, hdistinct⟩ := names_of_parse hparse
  have hproper : ∀ d ∈ ds, (normalize? d.name).isSome := fun d hd => by
    rw [hnames d hd]
    rfl
  exact ⟨hnames, hdistinct, fun s now => (Store.seeded hproper s now).named⟩

/-- Drafts of two names, the first drafts of which do not compile. -/
def starters : List Draft :=
  [⟨"hello", "", "Goto"⟩, ⟨"Hello", "one", "Disp 1"⟩, ⟨"BYE", "", "1+"⟩, ⟨"HELLO", "two", "Disp 2"⟩]

def greetingCatalog : String := "programs:\n- name: hello\n  source: Disp 1\n"

theorem parse_greetingCatalog :
    Catalog.parse Catalog.yaml greetingCatalog = .ok [⟨"HELLO", "", "Disp 1"⟩] := by
  have hchecked : (match Catalog.parse Catalog.yaml greetingCatalog with
      | .ok ds => ds == [⟨"HELLO", "", "Disp 1"⟩]
      | .error _ => false) = true := by decide +kernel
  split at hchecked
  · next ds hparse => rw [hparse, eq_of_beq hchecked]
  · cases hchecked

theorem seeded_and_catalog_named_starters :
    (∀ d ∈ starters, (normalize? d.name).isSome) ∧ ({} : Store).Seeded 0 starters ∧
      firstOf? "HELLO" starters = some ⟨"Hello", "one", "Disp 1"⟩ ∧ firstOf? "BYE" starters = none ∧
      Catalog.parse Catalog.yaml greetingCatalog = .ok [⟨"HELLO", "", "Disp 1"⟩] ∧
      ∀ (s : Store) (now : Int) (bad : String),
        (s.seed now [⟨"HELLO", "", "Disp 1"⟩]).2.2 ≠ some (.invalidName bad) := by
  have hnames : ∀ d ∈ starters, (normalize? d.name).isSome := by decide +kernel
  exact ⟨hnames, seeded_and_catalog_named.1 {} 0 starters hnames, by decide +kernel, by decide +kernel,
    parse_greetingCatalog, (seeded_and_catalog_named.2 _ _ _ parse_greetingCatalog).2.2⟩

end PocketBasic.Library
