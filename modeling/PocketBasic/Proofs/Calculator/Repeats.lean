import PocketBasic.Proofs.Calculator.Confirmed
import PocketBasic.Proofs.Calculator.Version
import PocketBasic.Text.Cluster

/-!
# Repeats of a held key

The calculator remembers one key as the one that is held, and this is the key that went down last. So a key
that is held goes on being ignored only while no other key goes down. After that it acts anew, although it
has not been released.
-/

namespace PocketBasic

namespace CalculatorCall

/-- A key goes down or up, or the clock beats. -/
def IsPlay : CalculatorCall → Prop
  | .load .. => False
  | .keyDown _ | .keyUp .. | .tick => True

def nextDown (last : String) : CalculatorCall → String
  | .keyDown code => code
  | .load .. | .keyUp .. | .tick => last

/-- The key that went down last in the course of the calls, and `first` if none did. -/
def lastDown (first : String) (calls : List CalculatorCall) : String := calls.foldl nextDown first

end CalculatorCall

namespace Calculator

open CalculatorCall (run nextDown lastDown)

variable {c : Calculator} {k last : String} {call : CalculatorCall} {calls : List CalculatorCall}

theorem held_step [Text.Typeface] (c : Calculator) (r : Running) : (c.step r).held = c.held := by
  obtain ⟨home, menu, hstep⟩ := step_eq c r
  rw [hstep]
  cases (r.state.step r.program c.menu.index).status <;> rfl

theorem held_tick [Text.Typeface] (c : Calculator) : c.tick.2.held = c.held :=
  tick_kept (P := fun c' => c'.held = c.held) (fun _ _ h => h)
    (steps_kept (P := fun c' => c'.held = c.held) (fun c' r h _ _ => (held_step c' r).trans h) rfl _)

theorem held_keyDown (c : Calculator) (code : String) : (c.keyDown code).held = code := by
  unfold keyDown
  split
  · next hheld => exact hheld.symm
  · simp only
    split
    · split
      · rfl
      · split <;> rfl
    · split <;> rfl

theorem held_menuKey (c : Calculator) (code : String) : (c.menuKey code).held = c.held := by
  obtain ⟨mode, menu, hkey⟩ := menuKey_frame c code
  rw [hkey]

theorem held_homeKey (c : Calculator) (r : Running) (code key : String) :
    (c.homeKey r code key).held = c.held := by
  obtain ⟨state, mode, input, hkey⟩ := homeKey_frame c r code key
  rw [hkey]

theorem held_keyUp (c : Calculator) (code key : String) :
    (c.keyUp code key).held = if code = c.held then "" else c.held := by
  let released : Calculator := { c with held := if code = c.held then "" else c.held }
  have hreleased : (if code = c.held then { c with held := "" } else c) = released := by
    unfold released
    split <;> rfl
  change _ = released.held
  unfold keyUp
  simp only [hreleased]
  split
  · rfl
  · next r hr =>
    split
    · exact held_menuKey released code
    · exact held_homeKey released r code key

/-- A key that is not held acts as if no key were held. -/
theorem keyDown_of_ne (hheld : k ≠ c.held) (hk : k ≠ "") :
    c.keyDown k = ({ c with held := "" } : Calculator).keyDown k := by
  unfold keyDown
  rw [if_neg hheld, if_neg hk]

/-- The calculator remembers the key that went down last, until that key goes up. Key `k` has not gone up. -/
def Remembers (k last : String) (c : Calculator) : Prop := c.held = last ∨ last ≠ k ∧ c.held = ""

theorem Remembers.apply [Text.Typeface] (h : Remembers k last c) (hplay : call.IsPlay)
    (hup : ∀ key, call ≠ .keyUp k key) :
    Remembers k (nextDown last call) (CalculatorCall.apply c call) := by
  cases call with
  | load name source => exact hplay.elim
  | tick =>
    have hkept := held_tick c
    unfold Remembers
    rwa [CalculatorCall.apply, hkept]
  | keyDown code => exact .inl (held_keyDown c code)
  | keyUp code key =>
    have hne : code ≠ k := by
      rintro rfl
      exact hup key rfl
    unfold Remembers
    rw [CalculatorCall.apply, held_keyUp, nextDown]
    by_cases hreleased : code = c.held
    · rw [if_pos hreleased]
      rcases h with hlast | ⟨hother, -⟩
      · exact .inr ⟨hlast ▸ hreleased ▸ hne, rfl⟩
      · exact .inr ⟨hother, rfl⟩
    · rw [if_neg hreleased]
      exact h

theorem Remembers.run [Text.Typeface] (h : Remembers k last c) (hplay : ∀ call ∈ calls, call.IsPlay)
    (hup : ∀ key, CalculatorCall.keyUp k key ∉ calls) :
    Remembers k (lastDown last calls) (run c calls) := by
  induction calls generalizing c last with
  | nil => exact h
  | cons call calls ih =>
    have hnext := h.apply (hplay call List.mem_cons_self) fun key heq =>
      hup key (heq ▸ List.mem_cons_self)
    exact ih hnext (fun call' hmem => hplay call' (List.mem_cons_of_mem call hmem))
      fun key hmem => hup key (List.mem_cons_of_mem call hmem)

/-- A key goes down and, whatever other keys do, it does not go up. If no other key has gone down since, its
repeats have no effect. Otherwise they act as a key does that was not held. -/
theorem keyDown_of_lastDown [Text.Typeface] (c : Calculator) (k : String) {calls : List CalculatorCall}
    (hplay : ∀ call ∈ calls, call.IsPlay) (hup : ∀ key, CalculatorCall.keyUp k key ∉ calls) :
    let c' := run (c.keyDown k) calls
    (lastDown k calls = k → c'.keyDown k = c') ∧
      (lastDown k calls ≠ k → k ≠ "" →
        c'.keyDown k = ({ c' with held := "" } : Calculator).keyDown k ∧
          (c'.keyDown k).version = c'.version + 1) := by
  intro c'
  have hremembers : Remembers k (lastDown k calls) c' :=
    Remembers.run (.inl (held_keyDown c k)) hplay hup
  refine ⟨fun hlast => ?_, fun hother hk => ?_⟩
  · rcases hremembers with hheld | ⟨hother, -⟩
    · unfold keyDown
      exact if_pos (hheld.trans hlast).symm
    · exact absurd hlast hother
  · have hne : k ≠ c'.held := by
      rcases hremembers with hheld | ⟨-, hnone⟩
      · exact fun heq => hother (hheld.symm.trans heq.symm)
      · rw [hnone]
        exact hk
    exact ⟨keyDown_of_ne hne hk, version_keyDown hne⟩

end Calculator

/-- On a menu the arrow is held while the clock beats and another key is let go, and the repeat is ignored.
When that other key has gone down too, the repeat moves the highlight. -/
theorem keyDown_of_lastDown_forked :
    let c₁ := CalculatorCall.run (forkedMenu.keyDown "ArrowDown") [.tick, .keyUp "KeyA" "a"]
    let c₂ := CalculatorCall.run (forkedMenu.keyDown "ArrowDown") [.keyDown "KeyA", .keyUp "KeyA" "a"]
    c₁.keyDown "ArrowDown" = c₁ ∧ c₁.menu.index = 1 ∧
      (c₂.keyDown "ArrowDown").version = c₂.version + 1 ∧ (c₂.keyDown "ArrowDown").menu.index = 0 := by
  have hplay₁ : ∀ call ∈ [CalculatorCall.tick, .keyUp "KeyA" "a"], call.IsPlay := by
    simp [CalculatorCall.IsPlay]
  have hplay₂ : ∀ call ∈ [CalculatorCall.keyDown "KeyA", .keyUp "KeyA" "a"], call.IsPlay := by
    simp [CalculatorCall.IsPlay]
  have hfirst := Calculator.keyDown_of_lastDown forkedMenu "ArrowDown" hplay₁ (by simp)
  have hsecond := Calculator.keyDown_of_lastDown forkedMenu "ArrowDown" hplay₂ (by simp)
  exact ⟨hfirst.1 rfl, rfl, (hsecond.2 (by decide) (by decide)).2, rfl⟩

/-- Two keys are held at once. The arrow is not released in between, and still its repeat moves the
highlight back. -/
theorem held_arrow_moves_highlight :
    forkedMenu = CalculatorCall.run (.new ⟨[]⟩ 1 ⟨fun _ => 0, 0⟩) forkedCalls ∧
      let c := CalculatorCall.run (forkedMenu.keyDown "ArrowDown") [.keyDown "KeyA"]
      c.menu.index = 1 ∧ (c.keyDown "ArrowDown").menu.index = 0 ∧ c.keyDown "ArrowDown" ≠ c := by
  refine ⟨forkedMenu_eq, rfl, rfl, fun heq => ?_⟩
  have hindex : (1 : Nat) = 0 := congrArg (fun c : Calculator => c.menu.index) heq.symm
  cases hindex

end PocketBasic
