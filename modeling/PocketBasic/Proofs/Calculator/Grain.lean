import PocketBasic.Proofs.Calculator.Reload
import PocketBasic.Proofs.Calculator.Version
import PocketBasic.Text.Cluster

/-!
# Steps per beat

The rate is only the grain in which the clock steps the program. One beat of `n` steps leads where `n` beats
of one step lead, and it takes a step just if one of them does. Calculators that differ in their rates, and
get the same calls whenever they have come to rest, show the same frames.
-/

namespace PocketBasic

namespace Calculator

open CalculatorCall (apply)

variable {b c d : Calculator} {rate version : Nat} {r : Running}

def regrain (c : Calculator) (rate version : Nat) : Calculator :=
  { c with stepsPerTick := rate, version := version }

/-- Both are the same, the rate and the version apart. -/
def Regrained (c d : Calculator) : Prop := ∃ rate version, d = c.regrain rate version

theorem Regrained.refl (c : Calculator) : Regrained c c := ⟨c.stepsPerTick, c.version, rfl⟩

theorem Regrained.symm (h : Regrained c d) : Regrained d c := by
  obtain ⟨rate, version, rfl⟩ := h
  exact ⟨c.stepsPerTick, c.version, rfl⟩

theorem Regrained.trans (h : Regrained b c) (h' : Regrained c d) : Regrained b d := by
  obtain ⟨rate, version, rfl⟩ := h
  obtain ⟨rate', version', rfl⟩ := h'
  exact ⟨rate', version', rfl⟩

theorem Regrained.mode (h : Regrained c d) : d.mode = c.mode := by
  obtain ⟨rate, version, rfl⟩ := h
  rfl

theorem Regrained.withVersion (h : Regrained c d) (v w : Nat) :
    Regrained { c with version := v } { d with version := w } := by
  obtain ⟨rate, version, rfl⟩ := h
  exact ⟨rate, w, rfl⟩

section Steps

theorem perform_regrain [Text.Typeface] (c : Calculator) (s : Signal) :
    (c.regrain rate version).perform s = (c.perform s).regrain rate version := by
  cases s <;> rfl

theorem foldl_perform_regrain [Text.Typeface] (signals : List Signal) (c : Calculator) :
    signals.foldl perform (c.regrain rate version) =
      (signals.foldl perform c).regrain rate version := by
  induction signals generalizing c with
  | nil => rfl
  | cons s signals ih => rw [List.foldl_cons, List.foldl_cons, perform_regrain, ih]

theorem enter_regrain (c : Calculator) (status : Status) :
    (c.regrain rate version).enter status = (c.enter status).regrain rate version := by
  cases status <;> rfl

theorem step_regrain [Text.Typeface] (c : Calculator) (r : Running) :
    (c.regrain rate version).step r = (c.step r).regrain rate version := by
  let o := r.state.step r.program c.menu.index
  have hstep : (c.regrain rate version).step r =
      enter (o.signals.foldl perform
        (regrain { c with running := some ⟨r.program, o.state⟩ } rate version)) o.status := rfl
  rw [hstep, foldl_perform_regrain, enter_regrain]
  rfl

/-- Either a step is taken first, or no step is taken at all. -/
theorem steps_cases [Text.Typeface] (c : Calculator) :
    (∃ r, c.mode = .run ∧ c.running = some r ∧
        ∀ n, c.steps (n + 1) = (true, ((c.step r).steps n).2)) ∨
      ∀ n, c.steps n = (false, c) := by
  by_cases h : c.mode = .run ∧ ∃ r, c.running = some r
  · obtain ⟨hmode, r, hr⟩ := h
    exact .inl ⟨r, hmode, hr, fun n => by simp only [steps, hmode, hr]⟩
  · refine .inr fun n => ?_
    cases n with
    | zero => rfl
    | succ n =>
      unfold steps
      split
      · next r hmode hr => exact absurd ⟨hmode, r, hr⟩ h
      · rfl

theorem steps_of_not_run [Text.Typeface] (hmode : c.mode ≠ .run) (n : Nat) : c.steps n = (false, c) := by
  rcases steps_cases c with ⟨r, hrun, -⟩ | hidle
  · exact absurd hrun hmode
  · exact hidle n

theorem steps_add [Text.Typeface] (c : Calculator) (m n : Nat) :
    (c.steps (m + n)).2 = ((c.steps m).2.steps n).2 := by
  induction m generalizing c with
  | zero => rw [Nat.zero_add, steps]
  | succ m ih =>
    rcases steps_cases c with ⟨r, -, -, hsteps⟩ | hidle
    · rw [Nat.add_right_comm, hsteps, hsteps, ih]
    · rw [hidle, hidle, hidle]

theorem steps_of_le [Text.Typeface] {m n : Nat} (hle : m ≤ n) (hmode : (c.steps m).2.mode ≠ .run) :
    (c.steps n).2 = (c.steps m).2 := by
  obtain ⟨k, rfl⟩ := Nat.exists_eq_add_of_le hle
  rw [steps_add, steps_of_not_run hmode]

theorem Regrained.steps [Text.Typeface] (h : Regrained c d) (n : Nat) :
    (c.steps n).1 = (d.steps n).1 ∧ Regrained (c.steps n).2 (d.steps n).2 := by
  induction n generalizing c d with
  | zero => exact ⟨rfl, h⟩
  | succ n ih =>
    obtain ⟨rate, version, rfl⟩ := h
    have hmode : (c.regrain rate version).mode = c.mode := rfl
    have hrunning : (c.regrain rate version).running = c.running := rfl
    unfold Calculator.steps
    rw [hmode, hrunning]
    -- The mode and the program are the same, so both take a step or neither does.
    cases c.mode with
    | run =>
      cases c.running with
      | none => exact ⟨rfl, rate, version, rfl⟩
      | some r => exact ⟨rfl, (ih ⟨rate, version, step_regrain c r⟩).2⟩
    | _ => exact ⟨rfl, rate, version, rfl⟩

end Steps

section Beats

theorem Regrained.of_version (c : Calculator) (version : Nat) :
    Regrained c { c with version := version } :=
  ⟨c.stepsPerTick, version, rfl⟩

theorem regrained_tick [Text.Typeface] (c : Calculator) :
    c.tick.1 = (c.steps c.stepsPerTick).1 ∧ Regrained (c.steps c.stepsPerTick).2 c.tick.2 := by
  unfold tick
  split
  · next c' hsteps =>
    rw [hsteps]
    exact ⟨rfl, .of_version c' _⟩
  · next c' hsteps =>
    rw [hsteps]
    exact ⟨rfl, .refl c'⟩

theorem rate_tick [Text.Typeface] (c : Calculator) : c.tick.2.stepsPerTick = c.stepsPerTick :=
  (sameOptions_apply c .tick).rate

theorem rate_ticks [Text.Typeface] (c : Calculator) (n : Nat) :
    (c.ticks n).2.stepsPerTick = c.stepsPerTick := by
  induction n generalizing c with
  | zero => rfl
  | succ n ih => rw [← rate_tick c, ← ih c.tick.2, ticks]

theorem regrained_ticks [Text.Typeface] (c : Calculator) (n : Nat) :
    Regrained (c.steps (n * c.stepsPerTick)).2 (c.ticks n).2 := by
  induction n generalizing c with
  | zero =>
    rw [Nat.zero_mul]
    exact .refl c
  | succ n ih =>
    have hfirst := ((regrained_tick c).2.steps (n * c.stepsPerTick)).2
    have hmore := ih c.tick.2
    rw [rate_tick] at hmore
    rw [Nat.succ_mul, Nat.add_comm, steps_add]
    exact hfirst.trans hmore

/-- Steps are taken just if one is to be taken and the first one is. -/
theorem stepped_steps [Text.Typeface] (c : Calculator) (n : Nat) :
    (c.steps n).1 = true ↔ 0 < n ∧ (c.steps 1).1 = true := by
  cases n with
  | zero => simp [steps]
  | succ n =>
    rcases steps_cases c with ⟨r, -, -, hsteps⟩ | hidle
    · simp [hsteps n, hsteps 0]
    · simp [hidle]

theorem tick_of_not_stepped [Text.Typeface] (h : c.tick.1 = false) : c.tick.2 = c := by
  rw [(regrained_tick c).1] at h
  have hsteps : c.steps c.stepsPerTick = (false, c) := by
    cases hrate : c.stepsPerTick with
    | zero => rfl
    | succ n =>
      rw [hrate] at h
      rcases steps_cases c with ⟨r, -, -, hsteps⟩ | hidle
      · rw [hsteps] at h
        cases h
      · exact hidle (n + 1)
  unfold tick
  rw [hsteps]

theorem stepped_ticks [Text.Typeface] (c : Calculator) (n : Nat) :
    0 < (c.ticks n).1 ↔ 0 < n ∧ c.tick.1 = true := by
  induction n generalizing c with
  | zero => simp [ticks]
  | succ n ih =>
    have hcount : (c.ticks (n + 1)).1 = (if c.tick.1 then 1 else 0) + (c.tick.2.ticks n).1 := rfl
    rw [hcount]
    cases hstepped : c.tick.1 with
    | true => simp
    | false =>
      -- A beat without a step leaves the calculator as it is, so no later one takes a step.
      have hnone : ¬ 0 < (c.tick.2.ticks n).1 := by
        rw [tick_of_not_stepped hstepped, ih, hstepped]
        simp
      simpa using hnone

/-- One beat at the rate `n` is `n` beats at the rate one. -/
theorem regrained_beat [Text.Typeface] (c : Calculator) (n version version' : Nat) :
    Regrained (c.regrain n version).tick.2 ((c.regrain 1 version').ticks n).2 ∧
      ((c.regrain n version).tick.1 = true ↔ 0 < ((c.regrain 1 version').ticks n).1) := by
  have hsame : Regrained (c.regrain n version) (c.regrain 1 version') := ⟨1, version', rfl⟩
  obtain ⟨hcoarse, hcoarse'⟩ := regrained_tick (c.regrain n version)
  have hfine := regrained_ticks (c.regrain 1 version') n
  rw [show (c.regrain 1 version').stepsPerTick = 1 from rfl, Nat.mul_one] at hfine
  refine ⟨hcoarse'.symm.trans ((hsame.steps n).2.trans hfine), ?_⟩
  rw [hcoarse, (hsame.steps _).1, stepped_ticks, (regrained_tick (c.regrain 1 version')).1]
  exact stepped_steps (c.regrain 1 version') n

end Beats

section Calls

theorem regrained_start [Text.Typeface] (h : Regrained c d) (name : String) (p : Program) :
    Regrained (c.start name p) (d.start name p) := by
  obtain ⟨rate, version, rfl⟩ := h
  exact ⟨rate, version + 1, rfl⟩

theorem Regrained.keyDown (h : Regrained c d) (code : String) :
    Regrained (c.keyDown code) (d.keyDown code) := by
  obtain ⟨rate, version, rfl⟩ := h
  have hheld : (c.regrain rate version).held = c.held := rfl
  have hscreen : (c.regrain rate version).screen = c.screen := rfl
  unfold Calculator.keyDown
  rw [hheld, hscreen]
  split
  · exact ⟨rate, version, rfl⟩
  · split
    · split
      · exact ⟨rate, version + 1, rfl⟩
      · split <;> exact ⟨rate, version + 1, rfl⟩
    · split <;> exact ⟨rate, version + 1, rfl⟩

theorem menuKey_regrain (c : Calculator) (code : String) :
    (c.regrain rate version).menuKey code = (c.menuKey code).regrain rate version := by
  have hmenu : (c.regrain rate version).menu = c.menu := rfl
  unfold menuKey
  rw [hmenu]
  split
  · rfl
  · split
    · split <;> rfl
    · rfl

theorem homeKey_regrain (c : Calculator) (r : Running) (code key : String) :
    (c.regrain rate version).homeKey r code key = (c.homeKey r code key).regrain rate version := by
  have hkeys : (c.regrain rate version).keys = c.keys := rfl
  have hmode : (c.regrain rate version).mode = c.mode := rfl
  have hinput : (c.regrain rate version).input = c.input := rfl
  unfold homeKey
  rw [hkeys, hmode, hinput]
  dsimp only
  split <;> rfl

theorem Regrained.keyUp (h : Regrained c d) (code key : String) :
    Regrained (c.keyUp code key) (d.keyUp code key) := by
  obtain ⟨rate, version, rfl⟩ := h
  let released : Calculator := { c with held := if code = c.held then "" else c.held }
  cases hr : c.running with
  | none =>
    have hr' : (c.regrain rate version).running = none := hr
    have hheld : (c.regrain rate version).held = c.held := rfl
    unfold Calculator.keyUp
    rw [hheld]
    split <;> simp only [hr, hr'] <;> exact ⟨rate, version, rfl⟩
  | some r =>
    have hr' : (c.regrain rate version).running = some r := hr
    rw [keyUp_of_running hr, keyUp_of_running hr']
    apply Regrained.withVersion
    have hscreen : (c.regrain rate version).screen = c.screen := rfl
    rw [hscreen]
    split
    · exact ⟨rate, version, menuKey_regrain released code⟩
    · exact ⟨rate, version, homeKey_regrain released r code key⟩

theorem Regrained.apply [Text.Typeface] (h : Regrained c d) (hmode : c.mode ≠ .run) (call : CalculatorCall) :
    Regrained (CalculatorCall.apply c call) (CalculatorCall.apply d call) := by
  cases call with
  | load name source =>
    cases hp : Program.compile source with
    | error fault =>
      rw [CalculatorCall.apply_load_error hp, CalculatorCall.apply_load_error hp]
      exact h
    | ok p =>
      rw [CalculatorCall.apply_load_ok hp, CalculatorCall.apply_load_ok hp]
      exact regrained_start h name p
  | tick =>
    rw [CalculatorCall.apply, CalculatorCall.apply, tick_of_not_run hmode,
      tick_of_not_run (h.mode.symm ▸ hmode)]
    exact h
  | keyDown code => exact h.keyDown code
  | keyUp code key => exact h.keyUp code key

end Calls

/-- The clock beats until the calculator has left run mode. -/
def ComesToRest [Text.Typeface] (c c' : Calculator) : Prop := ∃ n, (c.ticks n).2 = c' ∧ c'.mode ≠ .run

/-- The calls are made one after the other, each when the calculator has come to rest, and it comes to rest
once more after the last. -/
inductive Plays [Text.Typeface] : Calculator → List CalculatorCall → Calculator → Prop
  | rest {c c' : Calculator} (h : ComesToRest c c') : Plays c [] c'
  | call {c c₁ c' : Calculator} {call : CalculatorCall} {calls : List CalculatorCall}
      (h : ComesToRest c c₁) (hcalls : Plays (apply c₁ call) calls c') : Plays c (call :: calls) c'

section Plays

variable {c' d' : Calculator} {calls : List CalculatorCall}

theorem ComesToRest.steps [Text.Typeface] (h : ComesToRest c c') :
    ∃ n, Regrained (c.steps n).2 c' ∧ (c.steps n).2.mode ≠ .run := by
  obtain ⟨n, rfl, hmode⟩ := h
  have hticks := regrained_ticks c n
  exact ⟨n * c.stepsPerTick, hticks, hticks.mode ▸ hmode⟩

theorem ComesToRest.sameRate [Text.Typeface] (h : ComesToRest c c') : c'.stepsPerTick = c.stepsPerTick := by
  obtain ⟨n, rfl, -⟩ := h
  exact rate_ticks c n

/-- Where one comes to rest, the other does, and in the same state. -/
theorem ComesToRest.regrained [Text.Typeface] (h : ComesToRest c c') (hcd : Regrained c d)
    (hrate : 0 < d.stepsPerTick) :
    (∃ d', ComesToRest d d') ∧ ∀ d', ComesToRest d d' → Regrained c' d' := by
  obtain ⟨n, hn, hmode⟩ := h.steps
  have hmode' : (d.steps n).2.mode ≠ .run := by
    rw [(hcd.steps n).2.mode]
    exact hmode
  refine ⟨⟨(d.ticks n).2, n, rfl, ?_⟩, fun d' hd => ?_⟩
  · -- With at least one step in a beat, `n` beats are enough.
    have hticks := regrained_ticks d n
    rw [hticks.mode, steps_of_le (Nat.le_mul_of_pos_right n hrate) hmode']
    exact hmode'
  · obtain ⟨m, hm, hmode₂⟩ := hd.steps
    have hsame : (d.steps m).2 = (d.steps n).2 := by
      rcases Nat.le_total n m with hle | hle
      · exact steps_of_le hle hmode'
      · exact (steps_of_le hle hmode₂).symm
    rw [hsame] at hm
    exact hn.symm.trans ((hcd.steps n).2.trans hm)

theorem Plays.regrained [Text.Typeface] (h : Plays c calls c') (hcd : Regrained c d)
    (hrate : 0 < d.stepsPerTick) :
    (∃ d', Plays d calls d') ∧ ∀ d', Plays d calls d' → Regrained c' d' := by
  induction h generalizing d with
  | rest h =>
    obtain ⟨⟨d', hd'⟩, hall⟩ := h.regrained hcd hrate
    refine ⟨⟨d', .rest hd'⟩, fun d'' hd'' => ?_⟩
    cases hd'' with
    | rest hrest => exact hall d'' hrest
  | @call c c₁ c' call calls h _ ih =>
    obtain ⟨⟨d₁, hd₁⟩, hall⟩ := h.regrained hcd hrate
    have hnext {d₁ : Calculator} (hd₁ : ComesToRest d d₁) :
        Regrained (apply c₁ call) (apply d₁ call) ∧ 0 < (apply d₁ call).stepsPerTick := by
      obtain ⟨-, -, hmode⟩ := h
      refine ⟨(hall d₁ hd₁).apply hmode call, ?_⟩
      rw [(sameOptions_apply d₁ call).rate, hd₁.sameRate]
      exact hrate
    obtain ⟨⟨d', hd'⟩, -⟩ := ih (hnext hd₁).1 (hnext hd₁).2
    refine ⟨⟨d', .call hd₁ hd'⟩, fun d'' hd'' => ?_⟩
    cases hd'' with
    | call hrest hcalls => exact (ih (hnext hrest).1 (hnext hrest).2).2 d'' hcalls

end Plays

theorem rate_new (keys : KeyMap) (stepsPerTick : Int) (dice : Dice) :
    0 < (new keys stepsPerTick dice).stepsPerTick := by
  unfold new
  dsimp only
  split <;> omega

/-- The rate is only the grain. One beat at any rate `n` is `n` beats at the rate one, the version apart, and
it takes a step just if one of them does. New calculators with any two rates, which are called only when they
have come to rest, come to rest after the same calls and show the same frames, the version apart. -/
theorem rate_unseen [Text.Typeface] :
    (∀ (c : Calculator) (n : Nat),
        Regrained (c.regrain n c.version).tick.2 ((c.regrain 1 c.version).ticks n).2 ∧
          ((c.regrain n c.version).tick.1 = true ↔ 0 < ((c.regrain 1 c.version).ticks n).1)) ∧
      ∀ (keys : KeyMap) (dice : Dice) (m n : Int) (calls : List CalculatorCall) (c : Calculator),
        Plays (.new keys m dice) calls c →
          (∃ d, Plays (.new keys n dice) calls d) ∧
            ∀ d, Plays (.new keys n dice) calls d →
              c.snapshot = { d.snapshot with version := c.snapshot.version } := by
  refine ⟨fun c n => regrained_beat c n c.version c.version, fun keys dice m n calls c h => ?_⟩
  have hsame : Regrained (.new keys m dice) (.new keys n dice) := ⟨_, _, rfl⟩
  obtain ⟨hplays, hall⟩ := h.regrained hsame (rate_new keys n dice)
  refine ⟨hplays, fun d hd => ?_⟩
  obtain ⟨rate, version, rfl⟩ := hall d hd
  rfl

end Calculator

def halting : Program := ⟨[⟨1, .clearHome⟩, ⟨2, .pause none⟩, ⟨3, .clearHome⟩], []⟩

theorem compile_halting : Program.compile "ClrHome\nPause\nClrHome" = .ok halting := by
  cbv

/-- The program is loaded, and Enter ends its pause. -/
def haltingCalls : List CalculatorCall := [.load "" "ClrHome\nPause\nClrHome", .keyUp "Enter" ""]

/-- A calculator that has been through the calls, beat by beat of `n` steps. -/
def haltingEnd (n : Int) (beats beats' : Nat) : Calculator :=
  let paused := ((Calculator.start (.new ⟨[]⟩ n ⟨fun _ => 0, 0⟩) "" halting).ticks beats).2
  ((paused.keyUp "Enter" "").ticks beats').2

theorem plays_halting : Calculator.Plays (.new ⟨[]⟩ 1 ⟨fun _ => 0, 0⟩) haltingCalls (haltingEnd 1 2 2) := by
  refine .call ⟨0, rfl, by decide⟩ ?_
  rw [CalculatorCall.apply_load_ok compile_halting]
  exact .call ⟨2, rfl, by decide⟩ (.rest ⟨2, rfl, by decide⟩)

/-- The second calculator needs one beat where the first needs two. -/
theorem rate_unseen_halting :
    Calculator.Plays (.new ⟨[]⟩ 1 ⟨fun _ => 0, 0⟩) haltingCalls (haltingEnd 1 2 2) ∧
      Calculator.Plays (.new ⟨[]⟩ 3 ⟨fun _ => 0, 0⟩) haltingCalls (haltingEnd 3 1 1) ∧
      (haltingEnd 1 2 2).version = 6 ∧ (haltingEnd 3 1 1).version = 4 ∧
      (haltingEnd 1 2 2).snapshot =
        { (haltingEnd 3 1 1).snapshot with version := (haltingEnd 1 2 2).snapshot.version } := by
  have hplays : Calculator.Plays (.new ⟨[]⟩ 3 ⟨fun _ => 0, 0⟩) haltingCalls (haltingEnd 3 1 1) := by
    refine .call ⟨0, rfl, by decide⟩ ?_
    rw [CalculatorCall.apply_load_ok compile_halting]
    exact .call ⟨1, rfl, by decide⟩ (.rest ⟨1, rfl, by decide⟩)
  have hsame := (Calculator.rate_unseen.2 ⟨[]⟩ ⟨fun _ => 0, 0⟩ 1 3 haltingCalls _ plays_halting).2 _ hplays
  exact ⟨plays_halting, hplays, by decide, by decide, hsame⟩

end PocketBasic
