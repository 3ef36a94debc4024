import Mathlib
import PocketBasic.Proofs.Journal.Shelf

/-!
# A journal keeps its latest entries

Whatever is written, and whatever the limits on size and number of files are, the old files and the live
one together hold the end of all that was written, in order. An old file is what the live one was when it
was moved aside, and its number says how many moves ago that was.
-/

namespace PocketBasic.Journal

inductive Call where
  | log (e : Entry)
  /-- An entry that is written whatever the options ask for. -/
  | write (e : Entry)
  | setArea (area : Area) (on : Bool)

def apply (j : Journal) : Call → Journal
  | .log e => (j.log e).1
  | .write e => j.append e
  | .setArea area on => j.setArea area on

def after (j : Journal) (calls : List Call) : Journal := calls.foldl apply j

def entry? (j : Journal) : Call → Option Entry
  | .log e => if j.wants e.level e.area then some e else none
  | .write e => some e
  | .setArea .. => none

def written (j : Journal) : List Call → List Entry
  | [] => []
  | call :: calls => (j.entry? call).toList ++ (j.apply call).written calls

def live (j : Journal) : List Entry := (j.file.bind fun path => j.folder.find? ⟨path, 0⟩).getD []

/-- The journal with one more entry in its live file, however long that is. -/
def record (j : Journal) (path : String) (e : Entry) : Journal :=
  { j with
    folder := j.folder.put ⟨path, 0⟩ ((j.folder.find? ⟨path, 0⟩).getD [] ++ [e])
    size := j.size + e.size }

/-- The live file grows too long with the entry. -/
def fills (j : Journal) (e : Entry) : Bool := j.maxSize < (j.size + e.size : Nat)

/-- What the live file holds when a call moves it aside. -/
def retires? (j : Journal) (call : Call) : Option (List Entry) :=
  (j.entry? call).bind fun e => if j.fills e then some (j.live ++ [e]) else none

/-- What the live file held each time it was moved aside, in order. -/
def retired (j : Journal) : List Call → List (List Entry)
  | [] => []
  | call :: calls => (j.retires? call).toList ++ (j.apply call).retired calls

/-- An open journal with its live page and the pages that were moved aside, the latest one first. At most
`limit` of them are still there. -/
structure Keeps (path : String) (limit : Nat) (j : Journal) (page : List Entry) (old : List (List Entry)) :
    Prop where
  file : j.file = some path
  place : ∃ parts, j.options.parts = some parts ∧ joinPath parts = path ∧
    parts.dropLast.isPrefixOf j.base = true
  most : (limit : Int) = max 1 j.options.keep
  holds : j.folder.Holds path ((page :: old.take limit)[·]?)

section Steps

variable {path : String} {limit : Nat} {j : Journal} {page : List Entry} {old : List (List Entry)}

theorem append_eq (hfile : j.file = some path) (e : Entry) :
    j.append e = if j.fills e then (j.record path e).rotate else j.record path e := by
  rw [append, hfile]
  exact if_congr decide_eq_true_iff.symm (by rw [record, hfile]) (by rw [record, hfile])

theorem Keeps.find? (h : Keeps path limit j page old) : (j.folder.find? ⟨path, 0⟩).getD [] = page := by
  rw [h.holds.find? 0]
  rfl

theorem Keeps.live (h : Keeps path limit j page old) : j.live = page := by
  rw [Journal.live, h.file]
  exact h.find?

theorem Keeps.rotate (h : Keeps path limit j page old) : Keeps path limit j.rotate [] (page :: old) := by
  obtain ⟨parts, hparts, hpath, hbase⟩ := h.place
  have hrotate : j.rotate =
      { j with folder := j.folder.rotate path j.options.keep, file := some path, size := 0 } := by
    rw [Journal.rotate, hparts]
    simp only [hbase, if_true, hpath]
  have hlength : (page :: old.take limit).length ≤ limit + 1 := by
    rw [List.length_cons, List.length_take]
    omega
  have hpages : (page :: old.take limit).take limit = (page :: old).take limit := by
    obtain ⟨n, rfl⟩ : ∃ n, limit = n + 1 := ⟨limit - 1, by have := h.most; omega⟩
    rw [List.take_succ_cons, List.take_take, Nat.min_eq_left (Nat.le_succ n), List.take_succ_cons]
  rw [hrotate]
  refine ⟨rfl, ⟨parts, hparts, hpath, hbase⟩, h.most, ?_⟩
  rw [← hpages]
  exact h.holds.rotate h.most hlength

theorem Keeps.record (h : Keeps path limit j page old) (e : Entry) :
    Keeps path limit (j.record path e) (page ++ [e]) old := by
  rw [Journal.record, h.find?]
  refine ⟨h.file, h.place, h.most, (h.holds.put 0 (page ++ [e])).congr fun n => ?_⟩
  cases n with
  | zero => rfl
  | succ n =>
    rw [Function.update_of_ne (Nat.succ_ne_zero n)]
    rfl

theorem Keeps.setArea (h : Keeps path limit j page old) (area : Area) (on : Bool) :
    Keeps path limit (j.setArea area on) page old := ⟨h.file, h.place, h.most, h.holds⟩

/-- A call writes its entry at the end of the live page, which may then be moved aside. -/
theorem Keeps.apply (h : Keeps path limit j page old) (call : Call) :
    ∃ page', Keeps path limit (j.apply call) page' ((j.retires? call).toList ++ old) ∧
      (page' :: ((j.retires? call).toList ++ old)).reverse.flatten =
        (page :: old).reverse.flatten ++ (j.entry? call).toList := by
  have happend (e : Entry) : ∃ page',
      Keeps path limit (j.append e) page'
        ((if j.fills e then some (j.live ++ [e]) else none).toList ++ old) ∧
      (page' :: ((if j.fills e then some (j.live ++ [e]) else none).toList ++ old)).reverse.flatten =
        (page :: old).reverse.flatten ++ [e] := by
    rw [append_eq h.file, h.live]
    split
    · exact ⟨[], (h.record e).rotate, by simp⟩
    · exact ⟨page ++ [e], h.record e, by simp⟩
  cases call with
  | setArea area on => exact ⟨page, h.setArea area on, by simp [retires?, entry?]⟩
  | write e => exact happend e
  | log e =>
    rw [Journal.apply, Journal.log, retires?, entry?]
    split
    · exact happend e
    · exact ⟨page, h, by simp⟩

theorem Keeps.after (h : Keeps path limit j page old) (calls : List Call) :
    ∃ page', Keeps path limit (j.after calls) page' ((j.retired calls).reverse ++ old) ∧
      (page' :: ((j.retired calls).reverse ++ old)).reverse.flatten =
        (page :: old).reverse.flatten ++ j.written calls := by
  induction calls generalizing j page old with
  | nil => exact ⟨page, h, by simp [written, retired]⟩
  | cons call calls ih =>
    obtain ⟨page₁, hkeeps₁, hflat₁⟩ := h.apply call
    obtain ⟨page₂, hkeeps₂, hflat₂⟩ := ih hkeeps₁
    have hretired : (j.retired (call :: calls)).reverse ++ old =
        ((j.apply call).retired calls).reverse ++ ((j.retires? call).toList ++ old) := by
      cases h : j.retires? call <;> simp [retired, h]
    refine ⟨page₂, ?_, ?_⟩
    · rw [hretired]
      exact hkeeps₂
    · rw [hretired, hflat₂, hflat₁, written, List.append_assoc]

end Steps

/-- What holds of the files of a journal: joined from the oldest to the live one they are the end of what
was written, as many old ones are there as were moved aside and may be kept, and the number of an old one
says when it was moved aside. -/
structure KeepsLatest (path : String) (limit : Nat) (d : Folder) (written : List Entry)
    (retired : List (List Entry)) : Prop where
  joined : ((List.range (min retired.length limit + 1)).reverse.flatMap fun n =>
    (d.find? ⟨path, n⟩).getD []) <:+ written
  present : ∀ f, (d.find? f).isSome = true ↔ f.path = path ∧ f.number ≤ min retired.length limit
  old : ∀ i < min retired.length limit, d.find? ⟨path, i + 1⟩ = retired.reverse[i]?

theorem flatMap_range_getElem? (pages : List (List Entry)) :
    ((List.range pages.length).reverse.flatMap fun n => pages[n]?.getD []) = pages.reverse.flatten := by
  have hmap : (List.range pages.length).map (fun n => pages[n]?.getD []) = pages := by
    refine List.ext_getElem (by simp) fun n hn hn' => ?_
    simp [hn']
  rw [List.flatMap_def, List.map_reverse, hmap]

theorem flatten_take_suffix (page : List Entry) (old : List (List Entry)) (limit : Nat) :
    (page :: old.take limit).reverse.flatten <:+ (page :: old).reverse.flatten := by
  refine ⟨(old.drop limit).reverse.flatten, ?_⟩
  rw [← List.flatten_append, ← List.reverse_append, List.cons_append, List.take_append_drop]

theorem Keeps.latest {path : String} {limit : Nat} {j : Journal} {page : List Entry}
    {retired : List (List Entry)} (h : Keeps path limit j page retired.reverse) :
    KeepsLatest path limit j.folder (page :: retired.reverse).reverse.flatten retired := by
  have hlength : (page :: retired.reverse.take limit).length = min retired.length limit + 1 := by
    rw [List.length_cons, List.length_take, List.length_reverse, Nat.min_comm]
  refine ⟨?_, fun f => ?_, fun i hi => ?_⟩
  · simp only [h.holds.find?]
    rw [← hlength, flatMap_range_getElem?]
    exact flatten_take_suffix page retired.reverse limit
  · rw [h.holds f]
    split
    · next hpath =>
      rw [isSome_getElem?, hlength, Nat.lt_succ_iff]
      exact (and_iff_right hpath).symm
    · next hpath => exact iff_of_false Bool.false_ne_true fun hf => hpath hf.1
  · rw [h.holds.find?, List.getElem?_cons_succ, List.getElem?_take, if_pos (by omega)]

theorem keeps_of_open {s : Settings} {j : Journal} (h : openWith? s = some j) :
    ∃ path, Keeps path (max 1 j.options.keep).toNat j [] [] := by
  obtain ⟨parts, hparts, rfl⟩ := Option.map_eq_some_iff.mp h
  have hnothing : Folder.Holds [] (joinPath parts) fun _ => none := fun f => (ite_self none).symm
  refine ⟨joinPath parts, rfl, ⟨parts, hparts, rfl, List.isPrefixOf_iff_prefix.mpr (List.prefix_refl _)⟩,
    by omega, (hnothing.put 0 []).congr fun n => ?_⟩
  rw [List.take_nil]
  cases n <;> rfl

/-- The live file is moved aside with every entry, and two old files are kept. -/
def restless : Settings :=
  ⟨[("Debug", [("max_log_size_mb", "0"), ("log_rotation_count", "2"), ("log_general", "true")])]⟩

def remark (message : String) : Entry := ⟨.info, .general, message, "12:00", "main.go:1"⟩

def remarks : List Call := ["A", "B", "C", "D"].map fun message => .log (remark message)

end PocketBasic.Journal
