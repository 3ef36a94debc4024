import PocketBasic.Program.Value

/-!
# What expressions read and change

The variables, the register of the last key and the source of random numbers.
-/

namespace PocketBasic

/-- Variables in the order of their first binding. -/
structure Variables where
  entries : List (String × Value)

namespace Variables

def get? (v : Variables) (name : String) : Option Value := v.entries.lookup name

def setEntry (name : String) (x : Value) : List (String × Value) → List (String × Value)
  | [] => [(name, x)]
  | (n, y) :: rest => if name == n then (n, x) :: rest else (n, y) :: setEntry name x rest

def set (v : Variables) (name : String) (x : Value) : Variables := ⟨setEntry name x v.entries⟩

theorem get?_set (v : Variables) (name other : String) (x : Value) :
    (v.set name x).get? other = if other = name then some x else v.get? other := by
  unfold get? set
  induction v.entries with
  | nil =>
    by_cases h : other = name
    · subst h; simp [setEntry]
    · have h' : (other == name) = false := by simpa using h
      simp [setEntry, List.lookup_cons, h, h']
  | cons e rest ih =>
    obtain ⟨n, y⟩ := e
    unfold setEntry
    by_cases hn : name = n
    · subst hn
      by_cases h : other = name
      · simp [h]
      · simp [List.lookup_cons, beq_false_of_ne h, h]
    · by_cases h : other = n
      · subst h
        have : ¬ other = name := fun e => hn e.symm
        simp [hn, this]
      · simp only [beq_iff_eq, hn, if_false] at ih ⊢
        simp [List.lookup_cons, beq_false_of_ne h, ih]

def initial : Variables :=
  ⟨[("True", .bool true), ("False", .bool false), ("Null", .null),
    ("Pi", .number (Float.ofBits 0x400921FB54442D18)),
    ("e", .number (Float.ofBits 0x4005BF0A8B145769))] ++
   Builtin.all.map fun f => (f.name, .function f)⟩

end Variables

structure Dice where
  draw : Nat → Float
  used : Nat := 0

def Dice.roll (d : Dice) : Float × Dice := (d.draw d.used, { d with used := d.used + 1 })

structure Memory where
  vars : Variables
  key : Int
  dice : Dice

namespace Memory

def initial (dice : Dice) : Memory := ⟨.initial, 0, dice⟩

/-- The name whose reading empties the key register. -/
def keyName : String := "getKey"

/-- The variable that takes the value of a bare expression. -/
def answerName : String := "Ans"

def set (m : Memory) (name : String) (v : Value) : Memory :=
  { m with vars := m.vars.set name v }

/-- Reads a name. The key register is emptied by reading it, and the first use of a variable binds
it to zero. -/
def lookup (m : Memory) (name : String) : Value × Memory :=
  if name = keyName then (.number (Float.ofInt m.key), { m with key := 0 })
  else match m.vars.get? name with
    | some v => (v, m)
    | none => (.number 0, m.set name (.number 0))

end Memory

end PocketBasic
