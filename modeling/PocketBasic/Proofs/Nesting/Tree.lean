import PocketBasic.Program.Statement

/-!
# Well-nested programs

`Nest` is the tree of a program in which every Else and every End belongs to a block and every other If
guards a single statement. Its statements may be of any kind, and a branch may have any number of Elses.
`Nest.enclosing` lists the blocks around a position of the flat statement list. It is read off the tree alone
and knows nothing of a run.
-/

namespace PocketBasic

namespace Command

def isLoop : Command → Bool
  | .whileLoop _ | .repeatLoop _ | .forLoop .. => true
  | _ => false

/-- Commands that neither test nor open, divide or close a block. -/
def isPlain : Command → Bool
  | .ifTest _ | .whileLoop _ | .repeatLoop _ | .forLoop .. | .thenMark | .elseMark | .endMark => false
  | _ => true

def isJump : Command → Bool
  | .goto _ | .menu .. => true
  | _ => false

end Command

/-- A stretch of statements, in a branch or not. Only in a branch it can have an Else of its own. -/
inductive Nest : (inBranch : Bool) → Type where
  | empty {inBranch : Bool} : Nest inBranch
  | sequence {inBranch : Bool} (first second : Nest inBranch) : Nest inBranch
  /-- A plain command behind any number of tests, each of which guards the statement after it. -/
  | guarded {inBranch : Bool} (tests : List Expr) (c : Command) (plain : c.isPlain = true) : Nest inBranch
  | loop {inBranch : Bool} (header : Command) (isLoop : header.isLoop = true) (body : Nest false) :
    Nest inBranch
  | branch {inBranch : Bool} (cond : Expr) (body : Nest true) : Nest inBranch
  | otherwise : Nest true

/-- A block by the positions of its markers: a loop by its header, a branch by its If, with the Then right
behind it, and by its Elses. -/
inductive Enclosure where
  | loop (header : Nat)
  | branch (test : Nat) (elses : List Nat)
deriving DecidableEq, Repr

/-- The positions that can stand for the block on the block stack. -/
def Enclosure.openers : Enclosure → List Nat
  | .loop header => [header]
  | .branch test elses => test :: (test + 1) :: elses

namespace Nest

/-- The statements in the order in which a program lists them. -/
def commands {inBranch : Bool} : Nest inBranch → List Command
  | .empty => []
  | .sequence first second => first.commands ++ second.commands
  | .guarded tests c _ => tests.map .ifTest ++ [c]
  | .loop header _ body => [header] ++ body.commands ++ [.endMark]
  | .branch cond body => [.ifTest cond, .thenMark] ++ body.commands ++ [.endMark]
  | .otherwise => [.elseMark]

variable {inBranch : Bool} {a i : Nat} {outer : List Enclosure}

def size (t : Nest inBranch) : Nat := t.commands.length

/-- The positions of the Elses that belong to the branch around a tree that starts at position `a`. -/
def elses {inBranch : Bool} (a : Nat) : Nest inBranch → List Nat
  | .sequence first second => first.elses a ++ second.elses (a + first.size)
  | .otherwise => [a]
  | .empty | .guarded .. | .loop .. | .branch .. => []

theorem elses_eq_nil (t : Nest inBranch) (h : inBranch = false) : t.elses a = [] := by
  induction t generalizing a with
  | sequence first second ih₁ ih₂ => rw [elses, ih₁ h, ih₂ h, List.nil_append]
  | otherwise => cases h
  | empty | guarded | loop | branch => rfl

section Size

variable (first second : Nest inBranch) (body : Nest false) (part : Nest true) (tests : List Expr)
  (c : Command) (cond : Expr)

theorem size_sequence : (sequence first second).size = first.size + second.size := by
  simp only [size, commands, List.length_append]

theorem size_guarded (plain : c.isPlain = true) :
    (guarded tests c plain : Nest inBranch).size = tests.length + 1 := by
  simp only [size, commands, List.length_append, List.length_map, List.length_cons, List.length_nil]

theorem size_loop (isLoop : c.isLoop = true) :
    (loop c isLoop body : Nest inBranch).size = 1 + body.size + 1 := by
  simp only [size, commands, List.length_append, List.length_cons, List.length_nil]

theorem size_branch : (branch cond part : Nest inBranch).size = 2 + part.size + 1 := by
  simp only [size, commands, List.length_append, List.length_cons, List.length_nil]

end Size

/-- The blocks around position `i` of a tree that starts at position `a`, the innermost first, on top of
the blocks around the whole tree. A block reaches from behind its header or Then to its End. -/
def enclosing {inBranch : Bool} (a : Nat) (outer : List Enclosure) (i : Nat) :
    Nest inBranch → List Enclosure
  | .empty | .guarded .. | .otherwise => outer
  | .sequence first second =>
    if i < a + first.size then first.enclosing a outer i
    else second.enclosing (a + first.size) outer i
  | .loop _ _ body =>
    if a < i ∧ i ≤ a + 1 + body.size then body.enclosing (a + 1) (.loop a :: outer) i else outer
  | .branch _ body =>
    if a + 1 < i ∧ i ≤ a + 2 + body.size then
      body.enclosing (a + 2) (.branch a (body.elses (a + 2)) :: outer) i
    else outer

/-- Before and behind a tree, and at its start, there are only the blocks around it. -/
theorem enclosing_outside (t : Nest inBranch) (h : i ≤ a ∨ a + t.size ≤ i) :
    t.enclosing a outer i = outer := by
  induction t generalizing a outer with
  | empty => rfl
  | guarded tests c plain => rfl
  | otherwise => rfl
  | sequence first second ih₁ ih₂ =>
    rw [size_sequence] at h
    unfold enclosing
    split
    · exact ih₁ (by omega)
    · exact ih₂ (by omega)
  | loop header isLoop body ih =>
    rw [size_loop] at h
    exact if_neg (by omega)
  | branch cond body ih =>
    rw [size_branch] at h
    exact if_neg (by omega)

section Parts

variable (first second : Nest inBranch) (body : Nest false) (part : Nest true) (cond : Expr)

theorem enclosing_first (h : i ≤ a + first.size) :
    (sequence first second).enclosing a outer i = first.enclosing a outer i := by
  by_cases hlt : i < a + first.size
  · exact if_pos hlt
  · have hsecond : second.enclosing (a + first.size) outer i = outer :=
      enclosing_outside second (.inl h)
    have hfirst : first.enclosing a outer i = outer :=
      enclosing_outside first (.inr (Nat.not_lt.mp hlt))
    rw [hfirst]
    exact (if_neg hlt).trans hsecond

theorem enclosing_second (h : a + first.size ≤ i) :
    (sequence first second).enclosing a outer i = second.enclosing (a + first.size) outer i :=
  if_neg (Nat.not_lt.mpr h)

theorem enclosing_body {header : Command} (isLoop : header.isLoop = true) (h : a + 1 ≤ i)
    (h' : i ≤ a + 1 + body.size) :
    (loop header isLoop body : Nest inBranch).enclosing a outer i =
      body.enclosing (a + 1) (.loop a :: outer) i :=
  if_pos ⟨h, h'⟩

theorem enclosing_then : (branch cond part : Nest inBranch).enclosing a outer (a + 1) = outer :=
  if_neg (by omega)

theorem enclosing_part (h : a + 2 ≤ i) (h' : i ≤ a + 2 + part.size) :
    (branch cond part : Nest inBranch).enclosing a outer i =
      part.enclosing (a + 2) (.branch a (part.elses (a + 2)) :: outer) i :=
  if_pos ⟨h, h'⟩

end Parts

end Nest

end PocketBasic
