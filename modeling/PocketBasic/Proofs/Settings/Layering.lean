import Mathlib
import PocketBasic.Settings.File

/-!
# A local settings file on top of another

Whether a settings file has a fault, and in which line, depends on its text alone. A local file with a
fault is nevertheless not ignored as a whole: the lines above the faulty one have been merged by then and
stay in effect. The settings below it are kept only where those lines say nothing.
-/

namespace PocketBasic.Settings

/-- What a raw line says, without the blanks around it. -/
def lineKind (raw : List Char) : LineKind :=
  classify (Text.trimChars (Text.dropCarriageReturn raw))

variable {s : Settings} {current text : String} {n : Nat} {e : SettingsError}
  {lines : List (List Char)}

/-- A line is faulty whatever the settings and the lines below it are, or it changes the settings and
reading goes on. -/
theorem readLines_cons (current : String) (n : Nat) (raw : List Char) :
    (∃ e, ∀ (s : Settings) rest, s.readLines current n (raw :: rest) = (s, some e)) ∨
      ∃ (change : Settings → Settings) (current' : String),
        (∀ (s : Settings) rest, s.readLines current n (raw :: rest) =
          (change s).readLines current' (n + 1) rest) ∧
        (lineKind raw = .nothing → ∀ s, change s = s) := by
  by_cases hlong : maxLine < Text.byteLength raw
  · exact .inl ⟨.lineTooLong, fun s rest => by rw [readLines, if_pos hlong]⟩
  · cases hkind : lineKind raw with
    | nothing =>
      refine .inr ⟨id, current, fun s rest => ?_, fun _ s => rfl⟩
      unfold lineKind at hkind
      simp only [readLines, if_neg hlong, hkind, id]
    | header name =>
      refine .inr ⟨(openSection · name), name, fun s rest => ?_, fun h => by cases h⟩
      unfold lineKind at hkind
      simp only [readLines, if_neg hlong, hkind]
    | junk =>
      unfold lineKind at hkind
      refine .inl ⟨.expectedPair n (String.ofList (Text.trimChars (Text.dropCarriageReturn raw))),
        fun s rest => ?_⟩
      simp only [readLines, if_neg hlong, hkind]
    | pair key value =>
      unfold lineKind at hkind
      by_cases hout : current.isEmpty
      · refine .inl ⟨.outsideSection n key, fun s rest => ?_⟩
        simp only [readLines, if_neg hlong, hkind, if_pos hout]
      · refine .inr ⟨(set · current key value), current, fun s rest => ?_, fun h => by cases h⟩
        simp only [readLines, if_neg hlong, hkind, if_neg hout]

/-- The settings read so far have no influence on what counts as a fault. -/
theorem readLines_fault_eq (s s' : Settings) (current : String) (n : Nat)
    (lines : List (List Char)) :
    (s.readLines current n lines).2 = (s'.readLines current n lines).2 := by
  induction lines generalizing s s' current n with
  | nil => rfl
  | cons raw rest ih =>
    rcases readLines_cons current n raw with ⟨e, hfault⟩ | ⟨change, current', hread, -⟩
    · rw [hfault, hfault]
    · rw [hread, hread]
      exact ih (change s) (change s') current' (n + 1)

/-- Reading stops at the first faulty line, with the settings as the lines above it left them. -/
theorem readLines_eq_some (h : (s.readLines current n lines).2 = some e) :
    ∃ good bad rest, lines = good ++ bad :: rest ∧
      s.readLines current n good = ((s.readLines current n lines).1, none) ∧
      (s.readLines current n (good ++ [bad])).2 = some e := by
  induction lines generalizing s current n with
  | nil => cases h
  | cons raw rest ih =>
    rcases readLines_cons current n raw with ⟨e', hfault⟩ | ⟨change, current', hread, -⟩
    · rw [hfault] at h ⊢
      exact ⟨[], raw, rest, rfl, rfl, by rw [List.nil_append, hfault, h]⟩
    · rw [hread] at h ⊢
      obtain ⟨good, bad, behind, rfl, hgood, hbad⟩ := ih h
      refine ⟨raw :: good, bad, behind, rfl, ?_, ?_⟩
      · rw [hread, hgood]
      · rw [List.cons_append, hread, hbad]

theorem readLines_of_nothing (hlines : ∀ raw ∈ lines, lineKind raw = .nothing) :
    (s.readLines current n lines).1 = s := by
  induction lines generalizing s current n with
  | nil => rfl
  | cons raw rest ih =>
    have hrest : ∀ l ∈ rest, lineKind l = .nothing := fun l hl =>
      hlines l (List.mem_cons_of_mem raw hl)
    rcases readLines_cons current n raw with ⟨e, hfault⟩ | ⟨change, current', hread, hsame⟩
    · rw [hfault]
    · rw [hread, hsame (hlines raw List.mem_cons_self)]
      exact ih hrest

theorem merge_fault_of_parse (h : parse text = .error e) (s : Settings) :
    (s.merge text).2 = some e := by
  unfold parse at h
  split at h
  · cases h
  · next s' e' hmerge =>
    cases h
    have hfault : (({} : Settings).merge text).2 = some e := congrArg Prod.snd hmerge
    rw [← hfault]
    exact readLines_fault_eq s {} "" 1 (rawLines text.toList)

/-- A local file with a fault leaves the settings as its lines above the fault make them. The settings
below it stay as they are if those lines are blank or comments. -/
theorem loadLayered_of_broken {file : Option String} {stored : Stored}
    (hload : load file = .ok stored) (hbroken : parse text = .error e) :
    ∃ good bad rest, rawLines text.toList = good ++ bad :: rest ∧
      (stored.settings.readLines "" 1 good).2 = none ∧
      (stored.settings.readLines "" 1 (good ++ [bad])).2 = some e ∧
      loadLayered file (some text) =
        .ok { stored with settings := (stored.settings.readLines "" 1 good).1 } ∧
      ((∀ raw ∈ good, lineKind raw = .nothing) → loadLayered file (some text) = .ok stored) := by
  have hlayered : loadLayered file (some text) =
      .ok { stored with settings := (stored.settings.merge text).1 } := by
    unfold loadLayered
    rw [hload]
    rfl
  obtain ⟨good, bad, rest, hlines, hgood, hbad⟩ :=
    readLines_eq_some (merge_fault_of_parse hbroken stored.settings)
  have hkept : (stored.settings.merge text).1 = (stored.settings.readLines "" 1 good).1 := by
    rw [hgood]
    rfl
  rw [hlayered, hkept]
  refine ⟨good, bad, rest, hlines, by rw [hgood], hbad, rfl, fun hnothing => ?_⟩
  rw [readLines_of_nothing hnothing]

/-- A settings file with a port, as it is stored. -/
def portFile : Stored := ⟨⟨[("Server", [("port", "1")])]⟩, true, some "[Server]\nport=1\n"⟩

theorem load_portFile : load (some "[Server]\nport=1\n") = .ok portFile := by cbv

theorem parse_brokenPort :
    parse "[Server]\nport=2\nbroken\n" = .error (.expectedPair 3 "broken") := by cbv

/-- A local file that changes the port above a line without an equals sign. -/
theorem loadLayered_of_broken_port :
    load (some "[Server]\nport=1\n") = .ok portFile ∧
      parse "[Server]\nport=2\nbroken\n" = .error (.expectedPair 3 "broken") ∧
      ∃ good bad rest, rawLines "[Server]\nport=2\nbroken\n".toList = good ++ bad :: rest ∧
        (portFile.settings.readLines "" 1 good).2 = none ∧
        (portFile.settings.readLines "" 1 (good ++ [bad])).2 = some (.expectedPair 3 "broken") ∧
        loadLayered (some "[Server]\nport=1\n") (some "[Server]\nport=2\nbroken\n") =
          .ok { portFile with settings := (portFile.settings.readLines "" 1 good).1 } := by
  obtain ⟨good, bad, rest, hlines, hgood, hbad, hlayered, -⟩ :=
    loadLayered_of_broken load_portFile parse_brokenPort
  exact ⟨load_portFile, parse_brokenPort, good, bad, rest, hlines, hgood, hbad, hlayered⟩

/-- The port of the settings file is not the one in effect although the local file has a fault. -/
theorem loadLayered_broken_changes_port :
    load (some "[Server]\nport=1\n") = .ok portFile ∧
      parse "[Server]\nport=2\nbroken\n" = .error (.expectedPair 3 "broken") ∧
      portFile.settings.get? "Server" "port" = some "1" ∧
      ∃ layered, loadLayered (some "[Server]\nport=1\n") (some "[Server]\nport=2\nbroken\n") =
          .ok layered ∧ layered.settings.get? "Server" "port" = some "2" := by
  refine ⟨load_portFile, parse_brokenPort, rfl,
    ⟨⟨[("Server", [("port", "2")])]⟩, true, some "[Server]\nport=1\n"⟩, ?_, rfl⟩
  cbv

end PocketBasic.Settings
