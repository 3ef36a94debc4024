import PocketBasic.Machine.Step

/-!
# Where the machine stands between two statements

A `Place` holds all of a state but the memory, for a machine that waits neither for input nor for a
selection. A step from a place runs or passes over the statement there. The marks of started loops and
taken branches are compared position by position.
-/

namespace PocketBasic

namespace Marks

theorem clear_of_not_has {m : Marks} {i : Nat} (h : m.has i = false) : m.clear i = m := by
  obtain ⟨positions⟩ := m
  have hi : i ∉ positions := by simpa [has] using h
  simp only [clear, Marks.mk.injEq, List.filter_eq_self, bne_iff_ne]
  exact fun j hj he => hi (he ▸ hj)

theorem clear_mark {m : Marks} {i : Nat} (h : m.has i = false) : (m.mark i).clear i = m := by
  have hm : m.clear i = m := clear_of_not_has h
  rw [mark, hm]
  calc (⟨i :: m.positions⟩ : Marks).clear i = m.clear i := by simp [clear]
    _ = m := hm

theorem has_mark (m : Marks) (i j : Nat) : (m.mark i).has j = (j == i || m.has j) := by
  by_cases h : j = i
  · subst h
    simp [has, mark]
  · simp [has, mark, clear, h]

theorem has_clear (m : Marks) (i j : Nat) : (m.clear i).has j = (j != i && m.has j) := by
  by_cases h : j = i
  · subst h
    simp [has, clear]
  · simp [has, clear, h]

/-- No position from `a` on and before `b` is marked. -/
def Free (m : Marks) (a b : Nat) : Prop := ∀ i, a ≤ i → i < b → m.has i = false

theorem Free.mono {m : Marks} {a b a' b' : Nat} (h : m.Free a b) (ha : a ≤ a') (hb : b' ≤ b) :
    m.Free a' b' :=
  fun i hi hi' => h i (by omega) (by omega)

theorem Free.mark {m : Marks} {a b i : Nat} (h : m.Free a b) (hi : i < a) :
    (m.mark i).Free a b := by
  intro j hj hj'
  have hne : ¬ j = i := by omega
  rw [has_mark, h j hj hj']
  simp [hne]

def AgreeBelow (m m' : Marks) (a : Nat) : Prop := ∀ i < a, m'.has i = m.has i

theorem AgreeBelow.refl (m : Marks) (a : Nat) : m.AgreeBelow m a := fun _ _ => rfl

theorem AgreeBelow.trans {m m' m'' : Marks} {a b c : Nat} (h : m.AgreeBelow m' b)
    (h' : m'.AgreeBelow m'' c) (hb : a ≤ b) (hc : a ≤ c) : m.AgreeBelow m'' a := by
  intro i hi
  rw [h' i (by omega), h i (by omega)]

theorem agreeBelow_clear (m : Marks) {a i : Nat} (h : a ≤ i) : m.AgreeBelow (m.clear i) a := by
  intro j hj
  have hne : j ≠ i := by omega
  rw [has_clear]
  simp [hne]

theorem agreeBelow_mark (m : Marks) {a i : Nat} (h : a ≤ i) : m.AgreeBelow (m.mark i) a := by
  intro j hj
  have hne : j ≠ i := by omega
  rw [has_mark]
  simp [hne]

end Marks

structure Place where
  pc : Nat
  blocks : List Nat
  skip : Option Nat
  started : Marks
  taken : Marks

namespace Place

def state (k : Place) (m : Memory) : State :=
  { memory := m, pc := k.pc, blocks := k.blocks, skip := k.skip, started := k.started,
    taken := k.taken }

theorem step_run {p : Program} {selection : Int} {m : Memory} {a line : Nat} {blocks : List Nat}
    {started taken : Marks} {c : Command} (h : p.statements[a]? = some ⟨line, c⟩) :
    (Place.state ⟨a, blocks, none, started, taken⟩ m).step p selection =
      match (Place.state ⟨a, blocks, none, started, taken⟩ m).run p line c with
      | .ok o => o
      | .error fault => (Place.state ⟨a, blocks, none, started, taken⟩ m).halt p fault := by
  simp only [State.step, Place.state, h, State.skipping]
  rfl

theorem step_pass {p : Program} {selection : Int} {m : Memory} {a line height : Nat}
    {blocks : List Nat} {started taken : Marks} {c : Command}
    (h : p.statements[a]? = some ⟨line, c⟩) (hh : height ≤ blocks.length) :
    (Place.state ⟨a, blocks, some height, started, taken⟩ m).step p selection =
      ((Place.state ⟨a, blocks, some height, started, taken⟩ m).pass p c).proceed := by
  simp only [State.step, Place.state, h, State.skipping, hh, decide_true, if_true]

end Place

end PocketBasic
