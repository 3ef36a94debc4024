import PocketBasic.Calculator.KeyMap
import PocketBasic.Document.Toml.Integer
import PocketBasic.Document.Toml.Outline
import PocketBasic.Document.Toml.Reader

/-!
# The table of a key map document

The table `keys` of a TOML document, however the document writes it: under its header, with dotted keys
or as an inline table. A key that comes again has its last number only.
-/

namespace PocketBasic.KeyMap

open Toml (Key Line Outline)

/-- Where the pairs of a document go. -/
inductive Place where
  /-- They stand before all headers. -/
  | top
  /-- They are entries of the table. -/
  | table
  /-- They are below an entry of the table, where none may stand. -/
  | entry
  /-- They belong to a table that is not looked at. -/
  | elsewhere
deriving DecidableEq, Repr

/-- The table `keys` as far as a document has been read. A later entry replaces an earlier one. -/
structure Reading where
  entries : List (String × Int) := []
  outline : Outline := {}
  place : Place := .top

def lowerCase (c : Char) : Char := if c.toNat = 0x212A then 'k' else c.toLower

/-- The name of the table, which may be written in any case. -/
def isTableName (name : String) : Bool := name.toList.map lowerCase = "keys".toList

namespace Reading

def put (r : Reading) (code : String) (number : Int) : Reading :=
  { r with entries := r.entries.filter (·.1 != code) ++ [(code, number)] }

/-- An entry of the table is a whole number, and its key is not dotted. -/
def addEntry? (r : Reading) (key : Key) (v : Toml.Value) : Option Reading :=
  match key, v with
  | [code], .integer written => (Toml.integerOf? written).map (r.put code)
  | _, _ => none

/-- A pair before all headers may give the whole table or one entry of it. -/
def addTop? (r : Reading) (key : Key) (v : Toml.Value) : Option Reading :=
  match key with
  | [] => some r
  | name :: rest =>
    if !isTableName name then some r
    else match rest, v with
      | [], .table pairs => pairs.foldlM (fun r p => r.addEntry? p.1 p.2) r
      | [], _ => none
      | _, _ => r.addEntry? rest v

/-- The place that a header opens. A header that names an entry gives it the number zero. -/
def enter? (r : Reading) (key : Key) : Option Reading :=
  match key with
  | [] => none
  | name :: rest =>
    if !isTableName name then some { r with place := .elsewhere }
    else match rest with
      | [] => some { r with place := .table }
      | [code] => some { r.put code ((r.entries.lookup code).getD 0) with place := .entry }
      | _ => none

/-- Pairs elsewhere are not even held against the outline. -/
def line? (r : Reading) : Line → Option Reading
  | .pair key v =>
    if r.place = .elsewhere then some r
    else do
      let outline ← r.outline.addPair? key v
      let r := { r with outline := outline }
      match r.place with
      | .top => r.addTop? key v
      | .table => r.addEntry? key v
      | _ => none
  | .table key => do
    let outline ← r.outline.openTable? key
    { r with outline := outline }.enter? key
  | .element key => do
    let outline ← r.outline.openElement? key
    if key.head?.any isTableName then none
    else some { r with outline := outline, place := .elsewhere }

end Reading

def tableOf? (lines : List Line) : Option (List (String × Int)) :=
  (lines.foldlM Reading.line? {}).map Reading.entries

namespace Reading

variable {r r' : Reading}

def Distinct (r : Reading) : Prop := (r.entries.map Prod.fst).Nodup

theorem Distinct.put (h : r.Distinct) (code : String) (number : Int) : (r.put code number).Distinct := by
  unfold Distinct Reading.put
  rw [List.map_append, List.nodup_append]
  refine ⟨h.sublist (List.filter_sublist.map Prod.fst), by simp, ?_⟩
  intro other hother code' hcode'
  obtain ⟨e, he, rfl⟩ := List.mem_map.mp hother
  obtain rfl : code' = code := by simpa using hcode'
  simpa using (List.mem_filter.mp he).2

theorem Distinct.addEntry? {key : Toml.Key} {v : Toml.Value} (h : r.Distinct)
    (hr : r.addEntry? key v = some r') : r'.Distinct := by
  unfold Reading.addEntry? at hr
  split at hr
  · obtain ⟨number, -, rfl⟩ := Option.map_eq_some_iff.mp hr
    exact h.put _ number
  · cases hr

/-- What each step of a run that may stop keeps, the run keeps. -/
theorem kept_foldlM {σ ι : Type} {P : σ → Prop} {f : σ → ι → Option σ} {s s' : σ} {l : List ι}
    (hstep : ∀ s i s', P s → f s i = some s' → P s') (h : P s) (hrun : l.foldlM f s = some s') : P s' := by
  induction l generalizing s with
  | nil =>
    cases hrun
    exact h
  | cons i l ih =>
    rw [List.foldlM_cons] at hrun
    obtain ⟨s₁, hfirst, hrest⟩ := Option.bind_eq_some_iff.mp hrun
    exact ih (hstep s i s₁ h hfirst) hrest

theorem Distinct.addTop? {key : Toml.Key} {v : Toml.Value} (h : r.Distinct)
    (hr : r.addTop? key v = some r') : r'.Distinct := by
  unfold Reading.addTop? at hr
  split at hr
  · cases hr
    exact h
  · split at hr
    · cases hr
      exact h
    · split at hr
      · exact kept_foldlM (fun _ _ _ h hr => h.addEntry? hr) h hr
      · cases hr
      · exact h.addEntry? hr

theorem Distinct.enter? {key : Toml.Key} (h : r.Distinct) (hr : r.enter? key = some r') :
    r'.Distinct := by
  unfold Reading.enter? at hr
  split at hr
  · cases hr
  · split at hr
    · cases hr
      exact h
    · split at hr
      · cases hr
        exact h
      · cases hr
        exact h.put _ _
      · cases hr

theorem Distinct.line? {l : Toml.Line} (h : r.Distinct) (hr : r.line? l = some r') : r'.Distinct := by
  cases l with
  | pair key v =>
    unfold Reading.line? at hr
    simp only at hr
    split at hr
    · cases hr
      exact h
    · obtain ⟨outline, -, hr⟩ := Option.bind_eq_some_iff.mp hr
      have hoff : Distinct { r with outline := outline } := h
      split at hr
      · exact hoff.addTop? hr
      · exact hoff.addEntry? hr
      · cases hr
  | table key =>
    obtain ⟨outline, -, hr⟩ := Option.bind_eq_some_iff.mp hr
    have hoff : Distinct { r with outline := outline } := h
    exact hoff.enter? hr
  | element key =>
    obtain ⟨outline, -, hr⟩ := Option.bind_eq_some_iff.mp hr
    split at hr
    · cases hr
    · cases hr
      exact h

end Reading

/-- A code that a document mentions again has its last number only. -/
theorem distinct_of_tableOf? {lines : List Toml.Line} {table : List (String × Int)}
    (h : tableOf? lines = some table) : (table.map Prod.fst).Nodup := by
  obtain ⟨r, hr, rfl⟩ := Option.map_eq_some_iff.mp h
  have hstart : Reading.Distinct {} := List.nodup_nil
  have hend : r.Distinct := Reading.kept_foldlM (fun _ _ _ h hr => h.line? hr) hstart hr
  exact hend

def TableReader.toml : TableReader where
  read? text := (Toml.parse? text).bind tableOf?
  distinct text table h := by
    obtain ⟨lines, -, htable⟩ := Option.bind_eq_some_iff.mp h
    exact distinct_of_tableOf? htable
  read?_empty := by decide +kernel

end PocketBasic.KeyMap
