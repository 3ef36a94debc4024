import PocketBasic.Calculator.Snapshot
import PocketBasic.Proofs.Calculator.Hosting
import PocketBasic.Text.Cluster

/-!
# The version tells when to draw

A client asks for the version and fetches a frame when it has moved. Every call counts the version up by
one, except those that the calculator lets pass, and these leave the frame as it is. So two frames with one
version are the same frame.
-/

namespace PocketBasic

/-- The calls that a calculator lets pass: a program with a fault, a beat outside run mode, the repeat of
the held key, and a key that goes up while there is no program. -/
def CalculatorCall.PassesBy (c : Calculator) : CalculatorCall → Prop
  | .load _ source => ∃ fault, Program.compile source = .error fault
  | .tick => c.mode ≠ .run
  | .keyDown code => code = c.held
  | .keyUp .. => c.running = none

namespace Calculator

open CalculatorCall (run PassesBy)

variable {c : Calculator} {r : Running} {call : CalculatorCall}

theorem enter_version (c : Calculator) (status : Status) : (c.enter status).version = c.version := by
  cases status <;> rfl

theorem version_step [Text.Typeface] (c : Calculator) (r : Running) : (c.step r).version = c.version := by
  obtain ⟨home, menu, hstep⟩ := step_eq c r
  rw [hstep, enter_version]

theorem version_steps [Text.Typeface] (c : Calculator) (n : Nat) : (c.steps n).2.version = c.version :=
  steps_kept (P := fun c' => c'.version = c.version) (fun c' r h _ _ => (version_step c' r).trans h) rfl n

theorem tick_of_not_run [Text.Typeface] (hmode : c.mode ≠ .run) : c.tick = (false, c) := by
  have hsteps : c.steps c.stepsPerTick = (false, c) := by
    cases c.stepsPerTick with
    | zero => rfl
    | succ n =>
      unfold steps
      split
      · next hrun _ => exact absurd hrun hmode
      · rfl
  unfold tick
  rw [hsteps]

theorem version_tick [Text.Typeface] (hmode : c.mode = .run) (hr : c.running = some r)
    (hrate : 0 < c.stepsPerTick) :
    c.tick.2.version = c.version + 1 := by
  -- The rate is positive, so a beat in run mode takes a step and counts the version up.
  obtain ⟨n, hn⟩ := Nat.exists_eq_succ_of_ne_zero (Nat.ne_of_gt hrate)
  have hsteps : c.steps c.stepsPerTick = (true, ((c.step r).steps n).2) := by
    rw [hn]
    simp only [steps, hmode, hr]
  unfold tick
  rw [hsteps]
  exact congrArg (· + 1) ((version_steps (c.step r) n).trans (version_step c r))

theorem version_keyDown {code : String} (hne : code ≠ c.held) :
    (c.keyDown code).version = c.version + 1 := by
  unfold keyDown
  rw [if_neg hne]
  simp only
  split
  · split
    · rfl
    · split <;> rfl
  · split <;> rfl

theorem version_menuKey (c : Calculator) (code : String) : (c.menuKey code).version = c.version := by
  obtain ⟨mode, menu, hkey⟩ := menuKey_frame c code
  rw [hkey]

theorem version_homeKey (c : Calculator) (r : Running) (code key : String) :
    (c.homeKey r code key).version = c.version := by
  obtain ⟨state, mode, input, hkey⟩ := homeKey_frame c r code key
  rw [hkey]

theorem version_keyUp (hr : c.running = some r) (code key : String) :
    (c.keyUp code key).version = c.version + 1 := by
  let released : Calculator := { c with held := if code = c.held then "" else c.held }
  rw [keyUp_of_running hr]
  apply congrArg (· + 1)
  split
  · exact version_menuKey released code
  · exact version_homeKey released r code key

theorem same_of_passesBy [Text.Typeface] (h : PassesBy c call) :
    (CalculatorCall.apply c call).version = c.version ∧
      (CalculatorCall.apply c call).snapshot = c.snapshot := by
  cases call with
  | load name source =>
    obtain ⟨fault, hfault⟩ := h
    rw [CalculatorCall.apply_load_error hfault]
    exact ⟨rfl, rfl⟩
  | tick =>
    rw [CalculatorCall.apply, tick_of_not_run h]
    exact ⟨rfl, rfl⟩
  | keyDown code =>
    have hheld : code = c.held := h
    rw [CalculatorCall.apply, keyDown, if_pos hheld]
    exact ⟨rfl, rfl⟩
  | keyUp code key =>
    have hnone : c.running = none := h
    obtain ⟨held, he⟩ := released_eq c code
    unfold CalculatorCall.apply keyUp
    simp only [he]
    split
    · exact ⟨rfl, rfl⟩
    · next r hr => cases hnone.symm.trans hr

theorem version_of_not_passesBy [Text.Typeface] (hc : Settled c) (h : ¬ PassesBy c call) :
    (CalculatorCall.apply c call).version = c.version + 1 := by
  cases call with
  | load name source =>
    cases hp : Program.compile source with
    | error fault => exact absurd ⟨fault, hp⟩ h
    | ok p =>
      rw [CalculatorCall.apply_load_ok hp]
      rfl
  | tick =>
    have hmode : c.mode = .run := not_not.mp h
    obtain ⟨r, hr⟩ := Option.isSome_iff_exists.mp (hc.loaded hmode)
    exact version_tick hmode hr hc.highlights.rate
  | keyDown code => exact version_keyDown h
  | keyUp code key =>
    obtain ⟨r, hr⟩ := Option.ne_none_iff_exists'.mp h
    exact version_keyUp hr code key

theorem version_run [Text.Typeface] (hc : Settled c) (calls : List CalculatorCall) :
    c.version ≤ (run c calls).version ∧ (run c calls).version ≤ c.version + calls.length ∧
      ((run c calls).version = c.version → (run c calls).snapshot = c.snapshot) := by
  induction calls generalizing c with
  | nil => exact ⟨Nat.le_refl _, Nat.le_refl _, fun _ => rfl⟩
  | cons call calls ih =>
    obtain ⟨hle, hbound, hsame⟩ := ih (hc.apply call)
    have hrun : run c (call :: calls) = run (CalculatorCall.apply c call) calls := rfl
    rw [hrun, List.length_cons]
    by_cases hpass : PassesBy c call
    · obtain ⟨hversion, hframe⟩ := same_of_passesBy hpass
      rw [hversion] at hle hbound hsame
      exact ⟨hle, by omega, fun heq => (hsame heq).trans hframe⟩
    · have hversion := version_of_not_passesBy hc hpass
      rw [hversion] at hle hbound
      exact ⟨by omega, by omega, fun heq => by omega⟩

theorem version_take [Text.Typeface] (hc : Settled c) (calls : List CalculatorCall) {i j : Nat}
    (hij : i ≤ j) :
    (run c (calls.take i)).version ≤ (run c (calls.take j)).version ∧
      ((run c (calls.take j)).version = (run c (calls.take i)).version →
        (run c (calls.take j)).snapshot = (run c (calls.take i)).snapshot) := by
  obtain ⟨k, rfl⟩ := Nat.exists_eq_add_of_le hij
  have hlater : run c (calls.take (i + k)) =
      run (run c (calls.take i)) ((calls.drop i).take k) := by
    rw [List.take_add]
    exact List.foldl_append
  rw [hlater]
  obtain ⟨hle, -, hsame⟩ := version_run (hc.run (calls.take i)) ((calls.drop i).take k)
  exact ⟨hle, hsame⟩

theorem run_take_succ [Text.Typeface] {calls : List CalculatorCall} {i : Nat}
    (hcall : calls[i]? = some call) :
    run c (calls.take (i + 1)) = CalculatorCall.apply (run c (calls.take i)) call := by
  simp only [run, List.take_add_one, hcall, Option.toList_some, List.foldl_append, List.foldl_cons,
    List.foldl_nil]

/-- The version in the 64 bits that a client is given. -/
def polled (c : Calculator) : UInt64 := .ofNat c.version

theorem toNat_polled (h : c.version < 2 ^ 64) : c.polled.toNat = c.version :=
  UInt64.toNat_ofNat_of_lt h

/-- Fewer than `2 ^ 64` calls, whatever they are: the version that a client polls never goes down, at two
moments with the same version the frames are the same in all they show, and the calls that leave the
version as it is are those that the calculator lets pass. -/
theorem snapshot_eq_of_polled_eq [Text.Typeface] (keys : KeyMap) (stepsPerTick : Int) (dice : Dice)
    {calls : List CalculatorCall} (hfew : calls.length < 2 ^ 64) :
    let c (i : Nat) := run (.new keys stepsPerTick dice) (calls.take i)
    (∀ i j, i ≤ j → (c i).polled ≤ (c j).polled) ∧
      (∀ i j, (c i).polled = (c j).polled → (c i).snapshot = (c j).snapshot) ∧
      ∀ i call, calls[i]? = some call →
        ((c (i + 1)).polled = (c i).polled ↔ PassesBy (c i) call) := by
  intro c
  have hnew : Settled (.new keys stepsPerTick dice) := settled_new keys stepsPerTick dice
  have hpolled (i : Nat) : (c i).polled.toNat = (c i).version := by
    apply toNat_polled
    have hbound : (c i).version ≤ 0 + (calls.take i).length := (version_run hnew (calls.take i)).2.1
    have hlength : (calls.take i).length ≤ calls.length := List.length_take_le' i calls
    omega
  have heq (i j : Nat) : (c i).polled = (c j).polled ↔ (c i).version = (c j).version := by
    rw [← UInt64.toNat_inj, hpolled, hpolled]
  refine ⟨fun i j hij => ?_, fun i j hsame => ?_, fun i call hcall => ?_⟩
  · rw [UInt64.le_iff_toNat_le, hpolled, hpolled]
    exact (version_take hnew calls hij).1
  · have hversion := (heq i j).mp hsame
    rcases Nat.le_total i j with hij | hji
    · exact ((version_take hnew calls hij).2 hversion.symm).symm
    · exact (version_take hnew calls hji).2 hversion
  · have hnext : c (i + 1) = CalculatorCall.apply (c i) call := run_take_succ hcall
    rw [heq, hnext]
    constructor
    · intro hsame
      by_contra hpass
      have hversion := version_of_not_passesBy (hnew.run (calls.take i)) hpass
      have hmoved : (CalculatorCall.apply (c i) call).version = (c i).version + 1 := hversion
      omega
    · intro hpass
      exact (same_of_passesBy hpass).1

end Calculator

/-- Enter is pressed, repeated and released while there is no program. -/
def idleCalls : List CalculatorCall :=
  [.keyDown "Enter", .keyDown "Enter", .tick, .keyUp "Enter" ""]

/-- Only the first of the calls moves the version. -/
theorem snapshot_eq_of_polled_eq_idle :
    idleCalls.length < 2 ^ 64 ∧
      let c (i : Nat) := CalculatorCall.run (.new ⟨[]⟩ 1 ⟨fun _ => 0, 0⟩) (idleCalls.take i)
      (c 0).polled ≠ (c 1).polled ∧ (c 1).snapshot = (c 4).snapshot ∧
        CalculatorCall.PassesBy (c 3) (.keyUp "Enter" "") := by
  have hfew : idleCalls.length < 2 ^ 64 := by decide
  obtain ⟨-, hsame, hpass⟩ :=
    Calculator.snapshot_eq_of_polled_eq ⟨[]⟩ 1 ⟨fun _ => 0, 0⟩ hfew
  exact ⟨hfew, by decide, hsame 1 4 (by decide), (hpass 3 _ rfl).mp (by decide)⟩

end PocketBasic
