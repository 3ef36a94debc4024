import Mathlib
import PocketBasic.Server.Basic

/-!
# What the messages of a client come to

`Outcome` lists what a message can come to: the calculator that it leaves and the reply. From that follow
the rules for single kinds of messages, first for the exchange and then for a server that receives one.
-/

namespace PocketBasic

/-- A calculator has been reset to run a program. The program is before its first statement and has bound
nothing yet, both screens are blank, and nothing is typed, held down or wrong. The settings stay, and the
random numbers go on. -/
structure Calculator.ResetTo (k : Calculator) (name : String) (program : Program) (k' : Calculator) :
    Prop where
  running : k'.running = some ⟨program,
    { memory := ⟨.initial, 0, k.remainingDice⟩, pc := 0, blocks := [], skip := none, started := ⟨[]⟩,
      taken := ⟨[]⟩, awaiting := none, choice := none, promptIndex := 0 }⟩
  name : k'.name = name
  mode : k'.mode = .run ∧ k'.screen = .home
  home : k'.home = ⟨Vector.replicate 8 (Vector.replicate 16 (.glyph ' ')), 0, 0⟩
  menu : k'.menu = ⟨"", [], 0⟩
  keys : k'.input = "" ∧ k'.held = ""
  fault : k'.fault = none
  version : k'.version = k.version + 1
  settings : k'.keys = k.keys ∧ k'.stepsPerTick = k.stepsPerTick ∧ k'.dice = k.dice

theorem Menu.ofOptions_nil [Text.Typeface] : ofOptions "" [] = ⟨"", [], 0⟩ := by
  have hfits : Text.textWidth "" ≤ titleWidth := by
    rw [Text.Typeface.textWidth_empty]
    exact Nat.zero_le _
  rw [ofOptions, Text.Typeface.truncate_of_le "" titleWidth "" hfits, List.map_nil]

theorem Calculator.resetTo_start [Text.Typeface] (k : Calculator) (name : String) (program : Program) :
    k.ResetTo name program (k.start name program) where
  running := rfl
  name := rfl
  mode := ⟨rfl, rfl⟩
  home := rfl
  menu := Menu.ofOptions_nil
  keys := ⟨rfl, rfl⟩
  fault := rfl
  version := rfl
  settings := ⟨rfl, rfl, rfl⟩

theorem Calculator.ResetTo.ne {k k' : Calculator} {name : String} {program : Program}
    (h : k.ResetTo name program k') : k' ≠ k := by
  rintro rfl
  have hversion := h.version
  omega

namespace Remote

variable {x : Circumstances} {limits : RateLimit} {k : Calculator} {e : Envelope} {r : Request}
  {text : String}

namespace Envelope

def IsValid (e : Envelope) : Prop := ∃ r, e.request = .ok r

/-- The message is to start a program: one of the library, or one that it brings along. -/
def Loads (e : Envelope) : Prop := e.type = 20 ∨ e.type = 21

/-- The compiled program that a message asks for, with the name that it is started under. -/
inductive Asks (x : Circumstances) (e : Envelope) : String → Program → Prop
  | stored {store : Library.Store} {item : Library.Item} {program : Program} (type : e.type = 20)
      (offered : x.library = some store) (found : store.get e.name = .ok item)
      (compiled : Program.compile item.source = .ok program) : Asks x e item.name program
  | source {program : Program} (type : e.type = 21)
      (compiled : Program.compile e.source = .ok program) : Asks x e sourceName program

theorem Asks.loads {name : String} {program : Program} (h : e.Asks x name program) : e.Loads := by
  cases h with
  | stored type => exact .inl type
  | source type => exact .inr type

theorem Asks.eq_name {name name' : String} {program program' : Program} (h : e.Asks x name program)
    (h' : e.Asks x name' program') : name = name' := by
  cases h with
  | stored type offered found =>
    cases h' with
    | stored _ offered' found' =>
      cases offered.symm.trans offered'
      cases found.symm.trans found'
      rfl
    | source type' => omega
  | source type =>
    cases h' with
    | stored type' => omega
    | source => rfl

theorem Asks.compiled_of_source {name : String} {program : Program} (h : e.Asks x name program)
    (htype : e.type = 21) : Program.compile e.source = .ok program := by
  cases h with
  | stored type => omega
  | source _ compiled => exact compiled

theorem Loads.le_type (h : e.Loads) : 20 ≤ e.type := by
  rcases h with h | h <;> omega

theorem request_cases (h : e.request = .ok r) :
    (e.type = 9 ∧ r = .keepAlive) ∨ (e.type = 16 ∧ r = .keyDown e.code) ∨
      (e.type = 17 ∧ r = .keyUp e.code e.key) ∨ (e.type = 20 ∧ r = .load e.name) ∨
      (e.type = 21 ∧ r = .run e.source) := by
  unfold request checkKey at h
  split_ifs at h <;> cases h <;> simp_all

theorem request_of_keepAlive (h : e.type = 9) : e.request = .ok .keepAlive := by
  unfold request
  rw [if_pos h]

theorem IsValid.not_rejected {fault : RequestError} (h : e.IsValid) :
    ¬ e.request = .error fault := by
  obtain ⟨r, hr⟩ := h
  rw [hr]
  exact nofun

end Envelope

open Envelope (Loads IsValid Asks)

/-- A request to load a program from the circumstances is let through. -/
def Allowed (x : Circumstances) (limits : RateLimit) : Prop :=
  (limits.allow "load" x.address x.loadLimit Duration.minute x.now).2 = true

variable [Text.Typeface]

/-- What a message comes to, by what is read of it. -/
inductive Outcome (x : Circumstances) (limits : RateLimit) (k : Calculator) :
    Option Envelope → Calculator → Option Message → Prop
  | malformed : Outcome x limits k none k (some (.failure "malformed message"))
  | invalid {e : Envelope} {fault : RequestError} (rejected : e.request = .error fault) :
      Outcome x limits k (some e) k (some (.failure fault.message))
  | keepAlive {e : Envelope} (type : e.type = 9) : Outcome x limits k (some e) k none
  | keyDown {e : Envelope} (type : e.type = 16) (valid : e.IsValid) :
      Outcome x limits k (some e) (k.keyDown e.code) none
  | keyUp {e : Envelope} (type : e.type = 17) (valid : e.IsValid) :
      Outcome x limits k (some e) (k.keyUp e.code e.key) none
  | refused {e : Envelope} {text : String} (loads : e.Loads) (valid : e.IsValid)
      (why : ¬ Allowed x limits ∨ ∀ name program, ¬ e.Asks x name program) :
      Outcome x limits k (some e) k (some (.failure text))
  | loaded {e : Envelope} {name : String} {program : Program} (valid : e.IsValid)
      (allowed : Allowed x limits) (asks : e.Asks x name program) :
      Outcome x limits k (some e) (k.start name program) (some (.loaded name))

/-- The calculator and the reply of what a message comes to. -/
def Handled.Meets (h : Handled) (P : Calculator → Option Message → Prop) : Prop := P h.calculator h.reply

theorem start_meets {limits' : RateLimit} {name source : String} (hloads : e.Loads) (hvalid : e.IsValid)
    (hallowed : Allowed x limits)
    (hasks : ∀ program, Program.compile source = .ok program → e.Asks x name program)
    (honly : ∀ name' program, e.Asks x name' program → Program.compile source = .ok program) :
    (start k limits' name source).Meets (Outcome x limits k (some e)) := by
  unfold start Calculator.load
  cases hcompile : Program.compile source with
  | error fault =>
    refine .refused hloads hvalid (.inr fun name' program hask => ?_)
    cases hcompile.symm.trans (honly name' program hask)
  | ok program => exact .loaded hvalid hallowed (hasks program hcompile)

theorem loadStored_meets {limits' : RateLimit} (htype : e.type = 20) (hvalid : e.IsValid)
    (hallowed : Allowed x limits) :
    (loadStored x k limits' e.name).Meets (Outcome x limits k (some e)) := by
  have hnot : ¬ e.type = 21 := by omega
  unfold loadStored
  split
  · next hlibrary =>
    refine .refused (.inl htype) hvalid (.inr fun name program hask => ?_)
    cases hask with
    | stored _ offered => cases hlibrary.symm.trans offered
    | source type => exact hnot type
  · next store hlibrary =>
    split
    · next item hget =>
      refine start_meets (.inl htype) hvalid hallowed (fun _ => .stored htype hlibrary hget)
        fun name' program hask => ?_
      cases hask with
      | stored _ offered found compiled =>
        cases hlibrary.symm.trans offered
        cases hget.symm.trans found
        exact compiled
      | source type => exact absurd type hnot
    · next fault hget =>
      refine .refused (.inl htype) hvalid (.inr fun name program hask => ?_)
      cases hask with
      | stored _ offered found =>
        cases hlibrary.symm.trans offered
        cases hget.symm.trans found
      | source type => exact hnot type

theorem limited_meets {load : RateLimit → Handled} (hloads : e.Loads) (hvalid : e.IsValid)
    (h : Allowed x limits → ∀ limits', (load limits').Meets (Outcome x limits k (some e))) :
    (limited x k limits load).Meets (Outcome x limits k (some e)) := by
  unfold limited
  split
  · next limits' hallow => exact h (congrArg Prod.snd hallow) limits'
  · next limits' hallow =>
    refine .refused hloads hvalid (.inl fun hallowed => ?_)
    cases hallowed.symm.trans (congrArg Prod.snd hallow)

theorem carryOut_meets (h : e.request = .ok r) :
    (carryOut x k limits r).Meets (Outcome x limits k (some e)) := by
  have hvalid : e.IsValid := ⟨r, h⟩
  rcases Envelope.request_cases h with
    ⟨htype, rfl⟩ | ⟨htype, rfl⟩ | ⟨htype, rfl⟩ | ⟨htype, rfl⟩ | ⟨htype, rfl⟩
  · exact .keepAlive htype
  · exact .keyDown htype hvalid
  · exact .keyUp htype hvalid
  · exact limited_meets (.inl htype) hvalid fun hallowed _ => loadStored_meets htype hvalid hallowed
  · exact limited_meets (.inr htype) hvalid fun hallowed limits' =>
      start_meets (.inr htype) hvalid hallowed (fun _ => .source htype) fun _ _ hask =>
        hask.compiled_of_source htype

theorem receive_meets (x : Circumstances) (k : Calculator) (limits : RateLimit) (text : String) :
    (receive x k limits text).Meets (Outcome x limits k (Envelope.decode? text)) := by
  unfold receive
  split
  · next hdecode =>
    rw [hdecode]
    exact .malformed
  · next e hdecode =>
    rw [hdecode]
    split
    · next fault hrequest => exact .invalid hrequest
    · next r hrequest => exact carryOut_meets hrequest

namespace Outcome

variable {k' : Calculator} {reply : Option Message} {o : Option Envelope} {name : String}

theorem kinds {m : Message} (h : Outcome x limits k o k' (some m)) :
    (∃ t, m = .failure t) ∨ ∃ name, m = .loaded name := by
  cases h with
  | malformed => exact .inl ⟨_, rfl⟩
  | invalid => exact .inl ⟨_, rfl⟩
  | refused => exact .inl ⟨_, rfl⟩
  | loaded => exact .inr ⟨_, rfl⟩

theorem failed {t : String} (h : Outcome x limits k o k' (some (.failure t))) : k' = k := by
  cases h with
  | malformed => rfl
  | invalid => rfl
  | refused => rfl

theorem fails_of_malformed (h : Outcome x limits k none k' reply) : ∃ t, reply = some (.failure t) := by
  cases h with
  | malformed => exact ⟨_, rfl⟩

theorem fails_of_invalid (h : Outcome x limits k (some e) k' reply) (hinvalid : ¬ e.IsValid) :
    ∃ t, reply = some (.failure t) := by
  cases h with
  | invalid => exact ⟨_, rfl⟩
  | keepAlive type => exact absurd ⟨_, Envelope.request_of_keepAlive type⟩ hinvalid
  | keyDown _ valid => exact absurd valid hinvalid
  | keyUp _ valid => exact absurd valid hinvalid
  | refused _ valid => exact absurd valid hinvalid
  | loaded valid => exact absurd valid hinvalid

theorem of_keepAlive (h : Outcome x limits k (some e) k' reply) (htype : e.type = 9) :
    k' = k ∧ reply = none := by
  cases h with
  | invalid rejected =>
    have hvalid : e.IsValid := ⟨_, Envelope.request_of_keepAlive htype⟩
    exact absurd rejected hvalid.not_rejected
  | keepAlive => exact ⟨rfl, rfl⟩
  | keyDown type => omega
  | keyUp type => omega
  | refused loads =>
    have htwenty := loads.le_type
    omega
  | loaded _ _ asks =>
    have htwenty := asks.loads.le_type
    omega

theorem of_keyDown (h : Outcome x limits k (some e) k' reply) (htype : e.type = 16) (hvalid : e.IsValid) :
    k' = k.keyDown e.code ∧ reply = none := by
  cases h with
  | invalid rejected => exact absurd rejected hvalid.not_rejected
  | keepAlive type => omega
  | keyDown => exact ⟨rfl, rfl⟩
  | keyUp type => omega
  | refused loads =>
    have htwenty := loads.le_type
    omega
  | loaded _ _ asks =>
    have htwenty := asks.loads.le_type
    omega

theorem of_keyUp (h : Outcome x limits k (some e) k' reply) (htype : e.type = 17) (hvalid : e.IsValid) :
    k' = k.keyUp e.code e.key ∧ reply = none := by
  cases h with
  | invalid rejected => exact absurd rejected hvalid.not_rejected
  | keepAlive type => omega
  | keyDown type => omega
  | keyUp => exact ⟨rfl, rfl⟩
  | refused loads =>
    have htwenty := loads.le_type
    omega
  | loaded _ _ asks =>
    have htwenty := asks.loads.le_type
    omega

theorem of_loads (h : Outcome x limits k (some e) k' reply) (hloads : e.Loads) :
    (∃ t, reply = some (.failure t)) ∨ ∃ name, reply = some (.loaded name) := by
  have htwenty := hloads.le_type
  cases h with
  | invalid => exact .inl ⟨_, rfl⟩
  | keepAlive type => omega
  | keyDown type => omega
  | keyUp type => omega
  | refused => exact .inl ⟨_, rfl⟩
  | loaded => exact .inr ⟨_, rfl⟩

theorem of_loaded (h : Outcome x limits k (some e) k' (some (.loaded name))) :
    e.IsValid ∧ Allowed x limits ∧ ∃ program, e.Asks x name program ∧ k.ResetTo name program k' := by
  cases h with
  | loaded valid allowed asks => exact ⟨valid, allowed, _, asks, k.resetTo_start name _⟩

theorem loaded_of_asks {program : Program} (h : Outcome x limits k (some e) k' reply) (hvalid : e.IsValid)
    (hallowed : Allowed x limits) (hasks : e.Asks x name program) : reply = some (.loaded name) := by
  have htwenty := hasks.loads.le_type
  cases h with
  | invalid rejected => exact absurd rejected hvalid.not_rejected
  | keepAlive type => omega
  | keyDown type => omega
  | keyUp type => omega
  | refused _ _ why =>
    rcases why with hnot | hnone
    · exact absurd hallowed hnot
    · exact absurd hasks (hnone name program)
  | loaded _ _ asks => rw [asks.eq_name hasks]

theorem loaded_of_reset {program : Program} (h : Outcome x limits k (some e) k' reply)
    (hasks : e.Asks x name program) (hreset : k.ResetTo name program k') : reply = some (.loaded name) := by
  rcases h.of_loads hasks.loads with ⟨t, rfl⟩ | ⟨name', rfl⟩
  · exact absurd h.failed hreset.ne
  · obtain ⟨-, -, program', asks, -⟩ := h.of_loaded
    rw [asks.eq_name hasks]

end Outcome

/-- Messages are answered once, and fail without effect on the calculator. -/
structure Answered (x : Circumstances) (limits : RateLimit) (text : String) (k k' : Calculator)
    (reply : Option Message) : Prop where
  kinds : ∀ m, reply = some m → (∃ t, m = .failure t) ∨ ∃ name, m = .loaded name
  failed : ∀ t, reply = some (.failure t) → k' = k
  malformed : Envelope.decode? text = none → ∃ t, reply = some (.failure t)
  invalid : ∀ e, Envelope.decode? text = some e → ¬ e.IsValid → ∃ t, reply = some (.failure t)
  keepAlive : ∀ e, Envelope.decode? text = some e → e.type = 9 → k' = k ∧ reply = none
  keyDown : ∀ e, Envelope.decode? text = some e → e.type = 16 → e.IsValid →
    k' = k.keyDown e.code ∧ reply = none
  keyUp : ∀ e, Envelope.decode? text = some e → e.type = 17 → e.IsValid →
    k' = k.keyUp e.code e.key ∧ reply = none
  loads : ∀ e, Envelope.decode? text = some e → e.Loads →
    (∃ t, reply = some (.failure t)) ∨ ∃ name, reply = some (.loaded name)
  /-- A load succeeds exactly when it is in order, let through, and asks for a program that there is. -/
  succeeds : ∀ e name, Envelope.decode? text = some e → (reply = some (.loaded name) ↔
    e.IsValid ∧ Allowed x limits ∧ ∃ program, e.Asks x name program)
  /-- A load is said to succeed exactly when the calculator has been reset to run the program. -/
  loaded : ∀ e name, Envelope.decode? text = some e → (reply = some (.loaded name) ↔
    ∃ program, e.Asks x name program ∧ k.ResetTo name program k')

/-- What is read and what is answered, in every state and for every text. -/
theorem answered_receive (x : Circumstances) (k : Calculator) (limits : RateLimit) (text : String) :
    (receive x k limits text).Meets (Answered x limits text k) := by
  have h := receive_meets x k limits text
  unfold Handled.Meets at h ⊢
  refine
    { kinds := fun m hm => Outcome.kinds (hm ▸ h)
      failed := fun t ht => Outcome.failed (ht ▸ h)
      malformed := fun hd => Outcome.fails_of_malformed (hd ▸ h)
      invalid := fun e hd => Outcome.fails_of_invalid (hd ▸ h)
      keepAlive := fun e hd => Outcome.of_keepAlive (hd ▸ h)
      keyDown := fun e hd => Outcome.of_keyDown (hd ▸ h)
      keyUp := fun e hd => Outcome.of_keyUp (hd ▸ h)
      loads := fun e hd => Outcome.of_loads (hd ▸ h)
      succeeds := fun e name hd => ?_
      loaded := fun e name hd => ?_ }
  · rw [hd] at h
    constructor
    · intro hreply
      rw [hreply] at h
      obtain ⟨hvalid, hallowed, program, hasks, -⟩ := h.of_loaded
      exact ⟨hvalid, hallowed, program, hasks⟩
    · rintro ⟨hvalid, hallowed, program, hasks⟩
      exact h.loaded_of_asks hvalid hallowed hasks
  · rw [hd] at h
    constructor
    · intro hreply
      rw [hreply] at h
      obtain ⟨-, -, program, hasks, hreset⟩ := h.of_loaded
      exact ⟨program, hasks, hreset⟩
    · rintro ⟨program, hasks, hreset⟩
      exact h.loaded_of_reset hasks hreset

end Remote

end PocketBasic
