import PocketBasic.Proofs.Calculator.Version
import PocketBasic.Proofs.Remote.Answering
import PocketBasic.Text.Cluster

/-!
# The frames that a connection is fed

A connection has one queue between a clock and a reader, which put messages into it, and a writer, which
takes them out. The clock records the version of a frame as sent whether or not the queue has room for the
frame. So when a tick finds no other version than the recorded one, the current frame has been put into the
queue exactly if there was room at the moment of the record, and until the version moves it is not put
there again.
-/

namespace PocketBasic.Remote

open Calculator (Settled)

/-- An open connection, with the calculator that it shows and the messages that its writer has taken. -/
structure Feed where
  outbox : Outbox
  calculator : Calculator
  limits : RateLimit
  taken : List Message := []

def Message.frame? : Message → Option Snapshot
  | .frame s => some s
  | _ => none

theorem Outcome.exists_calls [Text.Typeface] {x : Circumstances} {limits : RateLimit} {k k' : Calculator}
    {o : Option Envelope} {reply : Option Message} (h : Outcome x limits k o k' reply) :
    ∃ calls, k' = CalculatorCall.run k calls := by
  cases h with
  | malformed => exact ⟨[], rfl⟩
  | invalid => exact ⟨[], rfl⟩
  | keepAlive => exact ⟨[], rfl⟩
  | refused => exact ⟨[], rfl⟩
  | keyDown => exact ⟨[.keyDown _], rfl⟩
  | keyUp => exact ⟨[.keyUp _ _], rfl⟩
  | loaded _ _ asks =>
    cases asks with
    | stored _ _ _ compiled => exact ⟨[.load _ _], (CalculatorCall.apply_load_ok compiled).symm⟩
    | source _ compiled => exact ⟨[.load _ _], (CalculatorCall.apply_load_ok compiled).symm⟩

namespace Outbox

variable (o : Outbox)

theorem queue_push (m : Message) : (o.push m).queue = o.queue ++ if o.hasRoom then [m] else [] := by
  unfold push
  split
  · rfl
  · exact (List.append_nil _).symm

theorem push_kept (m : Message) : (o.push m).sent = o.sent ∧ (o.push m).started = o.started := by
  unfold push
  split <;> exact ⟨rfl, rfl⟩

variable [Text.Typeface] (c : Calculator)

theorem queue_pushFrame :
    (o.pushFrame c).queue = o.queue ++ if o.hasRoom then [.frame c.snapshot] else [] :=
  queue_push { o with sent := c.version } (.frame c.snapshot)

theorem pushFrame_kept : (o.pushFrame c).sent = c.version ∧ (o.pushFrame c).started = o.started :=
  push_kept { o with sent := c.version } (.frame c.snapshot)

variable {o c}

theorem tick_first (h : o.started = false) : o.tick c = ({ o.pushFrame c with started := true }, c) :=
  if_neg (by simp [h])

theorem tick_still (h : o.started = true) (hstill : c.tick.2.version = o.sent) :
    o.tick c = (o, c.tick.2) :=
  (if_pos h).trans (if_pos hstill)

theorem tick_moved (h : o.started = true) (hmoved : c.tick.2.version ≠ o.sent) :
    o.tick c = (o.pushFrame c.tick.2, c.tick.2) :=
  (if_pos h).trans (if_neg hmoved)

end Outbox

namespace Feed

/-- What the clock, the reader and the writer do, in any order. -/
inductive Event where
  /-- The clock queues the frame that it starts with, and from then on ticks. -/
  | clock
  | message (x : Circumstances) (text : String)
  /-- The writer takes messages from the front of the queue, at most so many. -/
  | take (n : Nat)
  /-- The writer waits, or is busy otherwise. -/
  | turn (waits : Bool)

/-- A connection before its clock and its writer start. -/
def opened (capacity : Nat) (session : String) (c : Calculator) (limits : RateLimit) : Feed :=
  { outbox := .opened capacity session, calculator := c, limits := limits }

/-- All messages that have been put into the queue. -/
def put (f : Feed) : List Message := f.taken ++ f.outbox.queue

/-- The frames among the messages that have been put into the queue. -/
def frames (f : Feed) : List Snapshot := f.put.filterMap Message.frame?

/-- A frame that the clock has recorded as sent, and whether there was room for it. -/
structure Record where
  frame : Snapshot
  fits : Bool
deriving DecidableEq

variable [Text.Typeface]

def apply (f : Feed) : Event → Feed
  | .clock =>
    let r := f.outbox.tick f.calculator
    { f with outbox := r.1, calculator := r.2 }
  | .message x text =>
    let h := receive x f.calculator f.limits text
    { f with
      outbox := h.reply.elim f.outbox f.outbox.push
      calculator := h.calculator
      limits := h.limits }
  | .take n =>
    let r := f.outbox.take n
    { f with outbox := r.1, taken := f.taken ++ r.2 }
  | .turn waits => { f with outbox := f.outbox.turn waits }

def after (f : Feed) (events : List Event) : Feed := events.foldl apply f

def record? (f : Feed) : Event → Option Record
  | .clock =>
    if f.outbox.started then
      let c := f.calculator.tick.2
      if c.version = f.outbox.sent then none else some ⟨c.snapshot, f.outbox.hasRoom⟩
    else some ⟨f.calculator.snapshot, f.outbox.hasRoom⟩
  | _ => none

/-- What the clock records in the course of events, in order. -/
def records (f : Feed) : List Event → List Record
  | [] => []
  | e :: events => (f.record? e).toList ++ (f.apply e).records events

section Step

variable {f : Feed} {e : Event} {r : Record}

omit [Text.Typeface] in
theorem frames_of_queue {g : Feed} {ms : List Message} (htaken : g.taken = f.taken)
    (hqueue : g.outbox.queue = f.outbox.queue ++ ms) :
    g.frames = f.frames ++ ms.filterMap Message.frame? := by
  rw [frames, put, htaken, hqueue, ← List.append_assoc, List.filterMap_append, frames, put]

omit [Text.Typeface] in
theorem frames_of_frame {g : Feed} {s : Snapshot} (htaken : g.taken = f.taken)
    (hqueue : g.outbox.queue = f.outbox.queue ++ if f.outbox.hasRoom then [.frame s] else []) :
    g.frames = f.frames ++ if f.outbox.hasRoom then [s] else [] := by
  rw [frames_of_queue htaken hqueue]
  split <;> rfl

theorem clock_first (h : f.outbox.started = false) :
    f.apply .clock = { f with outbox := { f.outbox.pushFrame f.calculator with started := true } } := by
  simp only [apply, Outbox.tick_first h]

theorem clock_still (h : f.outbox.started = true) (hstill : f.calculator.tick.2.version = f.outbox.sent) :
    f.apply .clock = { f with calculator := f.calculator.tick.2 } := by
  simp only [apply, Outbox.tick_still h hstill]

theorem clock_moved (h : f.outbox.started = true) (hmoved : f.calculator.tick.2.version ≠ f.outbox.sent) :
    f.apply .clock =
      { f with outbox := f.outbox.pushFrame f.calculator.tick.2, calculator := f.calculator.tick.2 } := by
  simp only [apply, Outbox.tick_moved h hmoved]

/-- Only the clock records frames: the first one as it starts, and later ones when the version has moved. -/
theorem record?_eq_some (h : f.record? e = some r) : e = .clock ∧
    ((f.outbox.started = false ∧ r = ⟨f.calculator.snapshot, f.outbox.hasRoom⟩) ∨
      f.outbox.started = true ∧ f.calculator.tick.2.version ≠ f.outbox.sent ∧
        r = ⟨f.calculator.tick.2.snapshot, f.outbox.hasRoom⟩) := by
  cases e with
  | message => cases h
  | take => cases h
  | turn => cases h
  | clock =>
    refine ⟨rfl, ?_⟩
    simp only [record?] at h
    split at h
    · next hstarted =>
      split at h
      · cases h
      · next hmoved =>
        cases h
        exact .inr ⟨hstarted, hmoved, rfl⟩
    · next hstarted =>
      cases h
      exact .inl ⟨by simpa using hstarted, rfl⟩

theorem record?_clock_eq_none (h : f.record? .clock = none) :
    f.outbox.started = true ∧ f.calculator.tick.2.version = f.outbox.sent := by
  simp only [record?] at h
  split at h
  · next hstarted =>
    split at h
    · next hstill => exact ⟨hstarted, hstill⟩
    · cases h
  · cases h

theorem exists_calls_apply (f : Feed) (e : Event) :
    ∃ calls, (f.apply e).calculator = CalculatorCall.run f.calculator calls := by
  cases e with
  | clock =>
    cases hstarted : f.outbox.started with
    | false =>
      rw [clock_first hstarted]
      exact ⟨[], rfl⟩
    | true =>
      refine ⟨[.tick], ?_⟩
      by_cases hstill : f.calculator.tick.2.version = f.outbox.sent
      · rw [clock_still hstarted hstill]
        rfl
      · rw [clock_moved hstarted hstill]
        rfl
  | message x text => exact (receive_meets x f.calculator f.limits text).exists_calls
  | take n => exact ⟨[], rfl⟩
  | turn waits => exact ⟨[], rfl⟩

theorem apply_of_record (h : f.record? e = some r) :
    (f.apply e).frames = f.frames ++ (if r.fits then [r.frame] else []) ∧
      (f.apply e).outbox.sent = r.frame.version ∧ (f.apply e).outbox.started = true ∧
      (f.apply e).calculator.snapshot = r.frame ∧
      (f.outbox.started = true → r.frame.version ≠ f.outbox.sent) := by
  obtain ⟨rfl, ⟨hstarted, rfl⟩ | ⟨hstarted, hmoved, rfl⟩⟩ := record?_eq_some h
  · rw [clock_first hstarted]
    exact ⟨frames_of_frame rfl (f.outbox.queue_pushFrame f.calculator),
      (f.outbox.pushFrame_kept f.calculator).1, rfl, rfl, fun h => absurd h (by simp [hstarted])⟩
  · rw [clock_moved hstarted hmoved]
    obtain ⟨hsent, hkept⟩ := f.outbox.pushFrame_kept f.calculator.tick.2
    exact ⟨frames_of_frame rfl (f.outbox.queue_pushFrame f.calculator.tick.2), hsent, hkept.trans hstarted,
      rfl, fun _ => hmoved⟩

omit [Text.Typeface] in
theorem frames_reply {g : Feed} {reply : Option Message} (htaken : g.taken = f.taken)
    (houtbox : g.outbox = reply.elim f.outbox f.outbox.push)
    (hreply : ∀ m, reply = some m → m.frame? = none) :
    g.frames = f.frames ∧ g.outbox.sent = f.outbox.sent ∧ g.outbox.started = f.outbox.started := by
  cases reply with
  | none =>
    rw [frames, put, htaken, houtbox]
    exact ⟨rfl, rfl, rfl⟩
  | some m =>
    have hm : (if f.outbox.hasRoom then [m] else []).filterMap Message.frame? = [] := by
      split
      · exact List.filterMap_cons_none (hreply m rfl)
      · rfl
    have hqueue := (congrArg Outbox.queue houtbox).trans (f.outbox.queue_push m)
    rw [frames_of_queue htaken hqueue, hm, List.append_nil, houtbox]
    exact ⟨rfl, f.outbox.push_kept m⟩

theorem apply_of_unrecorded (h : f.record? e = none) :
    (f.apply e).frames = f.frames ∧ (f.apply e).outbox.sent = f.outbox.sent ∧
      (f.apply e).outbox.started = f.outbox.started := by
  cases e with
  | clock =>
    obtain ⟨hstarted, hstill⟩ := record?_clock_eq_none h
    rw [clock_still hstarted hstill]
    exact ⟨rfl, rfl, rfl⟩
  | message x text =>
    refine frames_reply rfl rfl fun m hm => ?_
    have hreply : Outcome x f.limits f.calculator _ _ (receive x f.calculator f.limits text).reply :=
      receive_meets x f.calculator f.limits text
    rw [hm] at hreply
    obtain ⟨t, rfl⟩ | ⟨name, rfl⟩ := hreply.kinds
    · rfl
    · rfl
  | take n =>
    refine ⟨congrArg (List.filterMap Message.frame?) ?_, rfl, rfl⟩
    simp [put, apply, Outbox.take]
  | turn waits =>
    simp only [apply, Outbox.turn]
    split <;> exact ⟨rfl, rfl, rfl⟩

end Step

section Run

variable {f : Feed} {rs : List Record}

/-- The calculator has come after a frame, and still shows it if the version has not moved. -/
def Since (s : Snapshot) (c : Calculator) : Prop :=
  s.version ≤ c.version ∧ (c.version = s.version → c.snapshot = s)

theorem since_snapshot (c : Calculator) : Since c.snapshot c := ⟨Nat.le_refl _, fun _ => rfl⟩

theorem Since.run {s : Snapshot} {c : Calculator} (h : Since s c) (hc : Settled c)
    (calls : List CalculatorCall) : Since s (CalculatorCall.run c calls) := by
  obtain ⟨hle, -, hsame⟩ := Calculator.version_run hc calls
  refine ⟨h.1.trans hle, fun heq => ?_⟩
  have hversion : c.version = s.version := Nat.le_antisymm (heq ▸ hle) h.1
  rw [hsame (heq.trans hversion.symm), h.2 hversion]

/-- The records of a connection, up to now: their versions go up, the ones that fit are the frames that were
put into the queue, and the latest one is the one that the clock goes by. -/
structure Keeps (f : Feed) (rs : List Record) : Prop where
  settled : Settled f.calculator
  frames : f.frames = (rs.filter (·.fits)).map (·.frame)
  rising : (rs.map (·.frame.version)).Pairwise (· < ·)
  started : f.outbox.started = !rs.isEmpty
  latest : ∀ r, rs.getLast? = some r → f.outbox.sent = r.frame.version ∧ Since r.frame f.calculator

theorem Keeps.lt_of_record {e : Event} {r : Record} (h : Keeps f rs) (hr : f.record? e = some r) :
    ∀ s ∈ rs, s.frame.version < r.frame.version := by
  intro s hs
  obtain ⟨old, last, rfl⟩ := (List.eq_nil_or_concat' rs).resolve_left (List.ne_nil_of_mem hs)
  obtain ⟨hsent, hsince⟩ := h.latest last List.getLast?_concat
  obtain ⟨-, -, -, hshown, hmoved⟩ := apply_of_record hr
  -- The latest record is not after the calculator, and the new one shows what the calculator has come to.
  have hlast : last.frame.version < r.frame.version := by
    obtain ⟨calls, hcalls⟩ := exists_calls_apply f e
    have hle : last.frame.version ≤ (f.apply e).calculator.version :=
      (hcalls ▸ hsince.run h.settled calls).1
    have hversion : (f.apply e).calculator.version = r.frame.version := congrArg Snapshot.version hshown
    have hne := hmoved (by rw [h.started]; simp)
    omega
  rcases List.mem_append.mp hs with hold | hnew
  · have hrising := h.rising
    rw [List.map_append, List.pairwise_append] at hrising
    exact (hrising.2.2 _ (List.mem_map_of_mem hold) _ (List.mem_singleton_self _)).trans hlast
  · rwa [List.mem_singleton.mp hnew]

theorem Keeps.apply (h : Keeps f rs) (e : Event) : Keeps (f.apply e) (rs ++ (f.record? e).toList) := by
  obtain ⟨calls, hcalls⟩ := exists_calls_apply f e
  have hsettled : Settled (f.apply e).calculator := hcalls ▸ h.settled.run calls
  cases hr : f.record? e with
  | none =>
    obtain ⟨hframes, hsent, hstarted⟩ := apply_of_unrecorded hr
    rw [Option.toList_none, List.append_nil]
    refine ⟨hsettled, hframes.trans h.frames, h.rising, hstarted.trans h.started, fun r hlast => ?_⟩
    obtain ⟨hversion, hsince⟩ := h.latest r hlast
    exact ⟨hsent.trans hversion, hcalls ▸ hsince.run h.settled calls⟩
  | some r =>
    obtain ⟨hframes, hsent, hstarted, hshown, -⟩ := apply_of_record hr
    rw [Option.toList_some]
    refine ⟨hsettled, ?_, ?_, ?_, fun r' hlast => ?_⟩
    · rw [hframes, h.frames, List.filter_append, List.map_append]
      cases hfits : r.fits <;> simp [hfits]
    · rw [List.map_append, List.pairwise_append]
      refine ⟨h.rising, List.pairwise_singleton _ _, fun v hv w hw => ?_⟩
      obtain ⟨s, hs, rfl⟩ := List.mem_map.mp hv
      rw [List.map_singleton, List.mem_singleton] at hw
      exact hw ▸ h.lt_of_record hr s hs
    · rw [hstarted]
      simp
    · rw [List.getLast?_concat, Option.some_inj] at hlast
      subst hlast
      exact ⟨hsent, hshown ▸ since_snapshot _⟩

theorem Keeps.after (h : Keeps f rs) (events : List Event) :
    Keeps (f.after events) (rs ++ f.records events) := by
  induction events generalizing f rs with
  | nil =>
    rw [records, List.append_nil]
    exact h
  | cons e events ih =>
    rw [records, ← List.append_assoc]
    exact ih (h.apply e)

theorem keeps_opened {c : Calculator} (hc : Settled c) (capacity : Nat) (session : String)
    (limits : RateLimit) : Keeps (opened capacity session c limits) [] where
  settled := hc
  frames := by
    unfold Feed.frames put opened Outbox.opened
    cases capacity <;> rfl
  rising := .nil
  started := rfl
  latest := nofun

theorem Keeps.eq_of_frame_eq {r s : Record} (h : Keeps f rs) (hr : r ∈ rs) (hs : s ∈ rs)
    (heq : r.frame = s.frame) : r = s := by
  have hnodup : (rs.map (·.frame.version)).Nodup := h.rising.imp Nat.ne_of_lt
  exact List.inj_on_of_nodup_map hnodup hr hs (congrArg Snapshot.version heq)

omit [Text.Typeface] in
theorem mem_frames_iff {s : Snapshot} : s ∈ f.frames ↔ .frame s ∈ f.put := by
  unfold Feed.frames
  rw [List.mem_filterMap]
  constructor
  · rintro ⟨m, hm, hframe⟩
    cases m <;> cases hframe
    exact hm
  · exact fun hm => ⟨_, hm, rfl⟩

/-- At a tick that finds the version that was last recorded as sent, the current frame is the one that was
recorded, and it has been put into the queue exactly if there was room for it then. The tick puts nothing
there, so a frame that found no room is not made up for. -/
theorem frame_put_iff_fits (keys : KeyMap) (stepsPerTick : Int) (dice : Dice) (calls : List CalculatorCall)
    (capacity : Nat) (session : String) (limits : RateLimit) (events : List Event) {start : Feed}
    (hopened : start = opened capacity session (CalculatorCall.run (.new keys stepsPerTick dice) calls) limits)
    (hf : start.after events = f) (hstarted : f.outbox.started = true)
    (hstill : f.calculator.tick.2.version = f.outbox.sent) :
    ∃ r, (start.records events).getLast? = some r ∧ f.calculator.tick.2.snapshot = r.frame ∧
      (.frame f.calculator.tick.2.snapshot ∈ f.put ↔ r.fits = true) ∧
      (f.apply .clock).put = f.put := by
  have hnew : Settled (CalculatorCall.run (.new keys stepsPerTick dice) calls) :=
    (Calculator.settled_new keys stepsPerTick dice).run calls
  have hkeeps : Keeps f (start.records events) := by
    have h := (keeps_opened hnew capacity session limits).after events
    rwa [← hopened, hf, List.nil_append] at h
  have hne : start.records events ≠ [] := by
    intro hnil
    have h := hkeeps.started
    rw [hnil, hstarted] at h
    cases h
  obtain ⟨r, hlast⟩ := Option.ne_none_iff_exists'.mp (mt List.getLast?_eq_none_iff.mp hne)
  obtain ⟨hsent, hsince⟩ := hkeeps.latest r hlast
  have hshown : f.calculator.tick.2.snapshot = r.frame :=
    (hsince.run hkeeps.settled [.tick]).2 (hstill.trans hsent)
  refine ⟨r, hlast, hshown, ?_, ?_⟩
  · rw [hshown, ← mem_frames_iff, hkeeps.frames, List.mem_map]
    constructor
    · rintro ⟨s, hs, hframe⟩
      obtain ⟨hmem, hfits⟩ := List.mem_filter.mp hs
      rwa [← hkeeps.eq_of_frame_eq hmem (List.mem_of_getLast? hlast) hframe]
    · exact fun hfits => ⟨r, List.mem_filter.mpr ⟨List.mem_of_getLast? hlast, hfits⟩, rfl⟩
  · rw [clock_still hstarted hstill]
    rfl

end Run

end Feed

namespace Feed

/-- A connection to a calculator without a program, with room for one message in its queue. -/
def narrow : Feed := opened 1 "S" (.new ⟨[]⟩ 1 ⟨fun _ => 0, 0⟩) []

/-- The writer takes the first message before the clock starts. -/
theorem frame_put_iff_fits_prompt :
    let f := narrow.after [.take 1, .clock]
    f.outbox.started = true ∧ f.calculator.tick.2.version = f.outbox.sent ∧
      .frame f.calculator.tick.2.snapshot ∈ f.put := by
  intro f
  have hstarted : f.outbox.started = true := by decide
  have hstill : f.calculator.tick.2.version = f.outbox.sent := by decide
  have hopened : narrow = opened 1 "S" (CalculatorCall.run (.new ⟨[]⟩ 1 ⟨fun _ => 0, 0⟩) []) [] := rfl
  obtain ⟨r, hlast, -, hput, -⟩ := frame_put_iff_fits ⟨[]⟩ 1 ⟨fun _ => 0, 0⟩ [] 1 "S" [] [.take 1, .clock]
    hopened rfl hstarted hstill
  refine ⟨hstarted, hstill, hput.mpr ?_⟩
  cases hlast
  decide

/-- The clock starts before the writer has taken the first message. Later ticks find the version that was
recorded, and the frame is never put into the queue, though that is empty again. -/
theorem recorded_frame_lost :
    let f := narrow.after [.clock, .take 1, .clock]
    f.outbox.started = true ∧ f.calculator.tick.2.version = f.outbox.sent ∧
      narrow.records [.clock, .take 1, .clock] = [⟨f.calculator.tick.2.snapshot, false⟩] ∧
      f.outbox.queue = [] ∧ .frame f.calculator.tick.2.snapshot ∉ f.put := by
  decide

end Feed

end PocketBasic.Remote
