import PocketBasic.Proofs.Machine.Lockstep

/-!
# The first use of a variable

A variable that has never been set reads as zero, and reading it sets it to zero. Two memories are alike
if they differ only in variables that are unset in one and zero in the other. Nothing that a program does
with its memory can tell them apart.
-/

namespace PocketBasic

/-- A variable is the same in two memories, or it is unset in one and zero in the other. -/
def AlikeBinding (a b : Option Value) : Prop :=
  a = b ∨ a = none ∧ b = some (.number 0) ∨ a = some (.number 0) ∧ b = none

theorem alikeBinding_iff {a b : Option Value} :
    AlikeBinding a b ↔ a.getD (.number 0) = b.getD (.number 0) := by
  constructor
  · rintro (rfl | ⟨rfl, rfl⟩ | ⟨rfl, rfl⟩) <;> rfl
  · intro h
    cases a with
    | none =>
      cases b with
      | none => exact .inl rfl
      | some y => exact .inr (.inl ⟨rfl, congrArg some h.symm⟩)
    | some x =>
      cases b with
      | none => exact .inr (.inr ⟨congrArg some h, rfl⟩)
      | some y => exact .inl (congrArg some h)

def Variables.Alike (v w : Variables) : Prop := ∀ name, AlikeBinding (v.get? name) (w.get? name)

namespace Variables

variable {u v w : Variables}

theorem alike_iff : v.Alike w ↔
    ∀ name, (v.get? name).getD (.number 0) = (w.get? name).getD (.number 0) :=
  forall_congr' fun _ => alikeBinding_iff

theorem Alike.refl (v : Variables) : v.Alike v := fun _ => .inl rfl

theorem Alike.symm (h : v.Alike w) : w.Alike v :=
  alike_iff.mpr fun name => (alike_iff.mp h name).symm

theorem Alike.trans (h : u.Alike v) (h' : v.Alike w) : u.Alike w :=
  alike_iff.mpr fun name => (alike_iff.mp h name).trans (alike_iff.mp h' name)

theorem Alike.set (h : v.Alike w) (name : String) (x : Value) :
    (v.set name x).Alike (w.set name x) := by
  intro other
  rw [get?_set, get?_set]
  split
  · exact .inl rfl
  · exact h other

theorem alike_set_zero {name : String} (h : v.get? name = none) :
    v.Alike (v.set name (.number 0)) := by
  intro other
  rw [get?_set]
  split
  · next he =>
    subst he
    exact .inr (.inl ⟨h, rfl⟩)
  · exact .inl rfl

end Variables

/-- The key register and the random numbers to come are the same, and the variables are alike. -/
structure Memory.Alike (m n : Memory) : Prop where
  vars : m.vars.Alike n.vars
  key : m.key = n.key
  dice : m.dice = n.dice

namespace Memory

variable {l m n : Memory}

theorem Alike.refl (m : Memory) : m.Alike m := ⟨.refl _, rfl, rfl⟩

theorem Alike.symm (h : m.Alike n) : n.Alike m := ⟨h.vars.symm, h.key.symm, h.dice.symm⟩

theorem Alike.trans (h : l.Alike m) (h' : m.Alike n) : l.Alike n :=
  ⟨h.vars.trans h'.vars, h.key.trans h'.key, h.dice.trans h'.dice⟩

theorem Alike.set (h : m.Alike n) (name : String) (v : Value) :
    (m.set name v).Alike (n.set name v) :=
  ⟨h.vars.set name v, h.key, h.dice⟩

/-- Reading a variable gives its value, or zero, and leaves a memory that is alike. -/
theorem lookup_of_ne (m : Memory) {name : String} (h : name ≠ keyName) :
    (m.lookup name).1 = (m.vars.get? name).getD (.number 0) ∧ m.Alike (m.lookup name).2 := by
  simp only [lookup, if_neg h]
  cases hget : m.vars.get? name with
  | some v => exact ⟨rfl, .refl m⟩
  | none => exact ⟨rfl, Variables.alike_set_zero hget, rfl, rfl⟩

end Memory

section Indistinct

variable {m n : Memory}

theorem alike_lookup (h : m.Alike n) (name : String) :
    SameResult Memory.Alike (m.lookup name) (n.lookup name) := by
  by_cases hkey : name = Memory.keyName
  · simp only [Memory.lookup, if_pos hkey, h.key]
    exact ⟨rfl, h.vars, rfl, h.dice⟩
  · obtain ⟨hm, hm'⟩ := m.lookup_of_ne hkey
    obtain ⟨hn, hn'⟩ := n.lookup_of_ne hkey
    have hvalue := Variables.alike_iff.mp h.vars name
    exact ⟨by rw [hm, hn, hvalue], (hm'.symm.trans h).trans hn'⟩

theorem Memory.indistinct_alike : Memory.Indistinct Memory.Alike where
  lookup := alike_lookup
  roll h := ⟨congrArg (·.roll.1) h.dice, h.vars, h.key, congrArg (·.roll.2) h.dice⟩
  set := Memory.Alike.set
  press h _ := ⟨h.vars, rfl, h.dice⟩

end Indistinct

end PocketBasic
