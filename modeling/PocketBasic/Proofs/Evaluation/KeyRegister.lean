import PocketBasic.Proofs.Evaluation.Acts

/-!
# The key register is read once

`x.pinKey key` is the expression `x` with the key in the place of the first reading of the register, and
zero in the place of every later one. Evaluating `x` in a memory with that key gives what evaluating
`x.pinKey key` gives, and it leaves the register empty if the register was read at all.
-/

namespace PocketBasic

namespace Act

def readsKey : Act → Bool
  | .read name => name = Memory.keyName
  | _ => false

/-- What the register holds after acts that find a key in it. -/
def keyAfter (key : Int) (acts : List Act) : Int := if acts.any readsKey then 0 else key

/-- Acts with the key in the place of the first reading of the register and zero in the place of later
ones. -/
def pinKey (key : Int) : List Act → List Act
  | [] => []
  | a :: acts =>
    (if a.readsKey then .literal (.number (.ofInt key)) else a) :: pinKey (keyAfter key [a]) acts

theorem keyAfter_append (key : Int) (acts more : List Act) :
    keyAfter key (acts ++ more) = keyAfter (keyAfter key acts) more := by
  simp only [keyAfter, List.any_append]
  cases acts.any readsKey <;> cases more.any readsKey <;> rfl

theorem pinKey_append (key : Int) (acts more : List Act) :
    pinKey key (acts ++ more) = pinKey key acts ++ pinKey (keyAfter key acts) more := by
  induction acts generalizing key with
  | nil => rfl
  | cons a acts ih =>
    have hkey : keyAfter key (a :: acts) = keyAfter (keyAfter key [a]) acts :=
      keyAfter_append key [a] acts
    rw [List.cons_append, pinKey, pinKey, ih, hkey, List.cons_append]

theorem pinKey_singleton (key : Int) {a : Act} (h : a.readsKey = false) : pinKey key [a] = [a] := by
  simp only [pinKey, h, Bool.false_eq_true, if_false]

end Act

def Expr.readsKey (x : Expr) : Bool := x.acts.any Act.readsKey

mutual

def Expr.pinKey (key : Int) : Expr → Expr
  | .number line value => .number line value
  | .text line value => .text line value
  | .name line id => if id = Memory.keyName then .number line (.ofInt key) else .name line id
  | .binary line op left right =>
    .binary line op (left.pinKey key) (right.pinKey (if left.readsKey then 0 else key))
  | .assign line value targetLine target => .assign line (value.pinKey key) targetLine target
  | .call line function args =>
    .call line (function.pinKey key) (Expr.pinKeyList (if function.readsKey then 0 else key) args)

def Expr.pinKeyList (key : Int) : List Expr → List Expr
  | [] => []
  | x :: xs => x.pinKey key :: Expr.pinKeyList (if x.readsKey then 0 else key) xs

end

theorem length_pinKeyList (key : Int) (xs : List Expr) :
    (Expr.pinKeyList key xs).length = xs.length := by
  induction xs generalizing key with
  | nil => rfl
  | cons x xs ih => rw [Expr.pinKeyList, List.length_cons, List.length_cons, ih]

section Acts

open Act

mutual

/-- The readings that are replaced in the expression are those that its evaluation comes to. -/
theorem acts_pinKey : (x : Expr) → (key : Int) → (x.pinKey key).acts = Act.pinKey key x.acts
  | .number _ _, _ | .text _ _, _ => rfl
  | .name line id, key => by
    by_cases h : id = Memory.keyName
    · simp [Expr.pinKey, Expr.acts, Act.pinKey, readsKey, h]
    · simp [Expr.pinKey, Expr.acts, Act.pinKey, readsKey, h]
  | .binary line op left right, key => by
    rw [Expr.pinKey, Expr.acts, Expr.acts, acts_pinKey left, acts_pinKey right, pinKey_append,
      pinKey_append, pinKey_singleton _ rfl]
    rfl
  | .assign line value targetLine target, key => by
    rw [Expr.pinKey, Expr.acts, Expr.acts, acts_pinKey value, pinKey_append, pinKey_singleton _ rfl]
  | .call line function args, key => by
    rw [Expr.pinKey, Expr.acts, Expr.acts, acts_pinKey function, actsList_pinKey args, length_pinKeyList,
      pinKey_append, pinKey_append, pinKey_singleton _ rfl]
    rfl

theorem actsList_pinKey : (xs : List Expr) → (key : Int) →
    Expr.actsList (Expr.pinKeyList key xs) = Act.pinKey key (Expr.actsList xs)
  | [], _ => rfl
  | x :: xs, key => by
    rw [Expr.pinKeyList, Expr.actsList, Expr.actsList, acts_pinKey x, actsList_pinKey xs, pinKey_append]
    rfl

end

end Acts

def Memory.withKey (m : Memory) (key : Int) : Memory := { m with key := key }

def Scratch.withKey (w : Scratch) (key : Int) : Scratch := ⟨w.values, w.memory.withKey key⟩

section Performing

variable {w : Scratch} {a : Act}

theorem lookup_withKey (m : Memory) {name : String} (h : name ≠ Memory.keyName) (key : Int) :
    (m.withKey key).lookup name = ((m.lookup name).1, (m.lookup name).2.withKey key) ∧
      (m.lookup name).2.key = m.key := by
  have hsame : (m.withKey key).vars.get? name = m.vars.get? name := rfl
  simp only [Memory.lookup, if_neg h, hsame]
  cases m.vars.get? name <;> exact ⟨rfl, rfl⟩

theorem call_withKey (f : Value) (args : List Value) (m : Memory) (key : Int) :
    f.call args (m.withKey key) = ((f.call args m).1, (f.call args m).2.withKey key) ∧
      (f.call args m).2.key = m.key := by
  cases f with
  | function f =>
    simp only [Value.call, Builtin.call]
    cases f.unary? <;> exact ⟨rfl, rfl⟩
  | _ => exact ⟨rfl, rfl⟩

/-- An act that does not read the register does not depend on it and does not change it. -/
theorem perform_withKey (h : a.readsKey = false) (w : Scratch) (key : Int) :
    a.perform (w.withKey key) = (a.perform w).withKey key ∧
      (a.perform w).memory.key = w.memory.key := by
  obtain ⟨values, m⟩ := w
  cases a with
  | literal v => exact ⟨rfl, rfl⟩
  | read name =>
    obtain ⟨hlookup, hkey⟩ := lookup_withKey m (of_decide_eq_false h) key
    exact ⟨by simp only [Act.perform, Scratch.withKey, hlookup], hkey⟩
  | combine op =>
    cases values with
    | nil => exact ⟨rfl, rfl⟩
    | cons b rest => cases rest <;> exact ⟨rfl, rfl⟩
  | bind target => cases values <;> exact ⟨rfl, rfl⟩
  | call arity =>
    simp only [Act.perform, Scratch.withKey]
    cases values.drop arity with
    | nil => exact ⟨rfl, rfl⟩
    | cons f rest =>
      obtain ⟨hcall, hkey⟩ := call_withKey f (values.take arity).reverse m key
      exact ⟨by simp only [hcall], hkey⟩

theorem eq_read_of_readsKey (h : a.readsKey = true) : a = .read Memory.keyName := by
  cases a with
  | read name => rw [of_decide_eq_true h]
  | _ => cases h

/-- Reading the register is taking its key for a literal, and it empties the register. -/
theorem perform_read_key (w : Scratch) (key : Int) :
    (Act.literal (.number (.ofInt w.memory.key))).perform (w.withKey key) =
        ((Act.read Memory.keyName).perform w).withKey key ∧
      ((Act.read Memory.keyName).perform w).memory.key = 0 :=
  ⟨rfl, rfl⟩

/-- Acts find in the register what `pinKey` puts in the place of the readings. -/
theorem performAll_pinKey (acts : List Act) (w : Scratch) (key : Int) :
    Act.performAll (w.withKey key) (Act.pinKey w.memory.key acts) =
        (Act.performAll w acts).withKey key ∧
      (Act.performAll w acts).memory.key = Act.keyAfter w.memory.key acts := by
  induction acts generalizing w with
  | nil => exact ⟨rfl, rfl⟩
  | cons a acts ih =>
    have hafter : Act.keyAfter w.memory.key (a :: acts) =
        Act.keyAfter (Act.keyAfter w.memory.key [a]) acts :=
      Act.keyAfter_append w.memory.key [a] acts
    rw [Act.pinKey, Act.performAll_cons, Act.performAll_cons, hafter]
    cases h : a.readsKey with
    | true =>
      obtain rfl := eq_read_of_readsKey h
      obtain ⟨hperform, hkey⟩ := perform_read_key w key
      have hempty : Act.keyAfter w.memory.key [.read Memory.keyName] = 0 := rfl
      rw [if_pos rfl, hperform, hempty, ← hkey]
      exact ih _
    | false =>
      obtain ⟨hperform, hkey⟩ := perform_withKey h w key
      have hkept : Act.keyAfter w.memory.key [a] = (a.perform w).memory.key := by
        rw [hkey, Act.keyAfter, List.any_cons, h]
        rfl
      rw [if_neg Bool.false_ne_true, hperform, hkept]
      exact ih _

end Performing

/-- The register gives its key to the first reading and zero to all later ones. An evaluation performs the
acts of the expression from left to right, each of them once, and it comes to the same value, the same
variables and the same random numbers if the key stands in the place of the first reading and zero in the
place of the others. The register is empty afterwards if it was read, and otherwise as before. -/
theorem eval_pinKey (x : Expr) (m : Memory) :
    (∀ values, Act.performAll ⟨values, m⟩ x.acts = ⟨(x.eval m).1 :: values, (x.eval m).2⟩) ∧
      (x.pinKey m.key).acts = Act.pinKey m.key x.acts ∧
      ((x.pinKey m.key).eval m).1 = (x.eval m).1 ∧
      ((x.pinKey m.key).eval m).2.vars = (x.eval m).2.vars ∧
      ((x.pinKey m.key).eval m).2.dice = (x.eval m).2.dice ∧
      (x.eval m).2.key = if x.readsKey then 0 else m.key := by
  obtain ⟨hpinned, hkey⟩ := performAll_pinKey x.acts ⟨[], m⟩ m.key
  change Act.performAll ⟨[], m⟩ (Act.pinKey m.key x.acts) = _ at hpinned
  rw [← acts_pinKey, perform_acts, perform_acts] at hpinned
  rw [perform_acts] at hkey
  have hvalue := congrArg (·.values.head?) hpinned
  have hvars := congrArg (·.memory.vars) hpinned
  have hdice := congrArg (·.memory.dice) hpinned
  exact ⟨fun values => perform_acts x _, acts_pinKey x m.key, Option.some.inj hvalue, hvars, hdice, hkey⟩

end PocketBasic
