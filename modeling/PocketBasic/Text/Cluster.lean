import PocketBasic.Text.CellWidth
import PocketBasic.Text.ClusterBreak
import PocketBasic.Text.Typeface

/-!
# User-perceived characters and the width of a text

A text is split into grapheme clusters. The width of a cluster is that of its first visible
character, and a text is padded and cut by whole clusters.
-/

namespace PocketBasic.Text.Unicode

/-- What has to be remembered of a cluster to know whether the next character belongs to it. -/
structure ClusterState where
  last : BreakClass
  /-- A pictograph followed by extending characters only. -/
  pictograph : Bool
  /-- The joiner just read follows such a pictograph. -/
  joined : Bool
  /-- An odd number of regional indicators stands at the end. -/
  oddRegional : Bool

def ClusterState.start (c : Char) : ClusterState :=
  ⟨breakClass c, isPictograph c, false, breakClass c = .regional⟩

def ClusterState.push (s : ClusterState) (c : Char) : ClusterState :=
  let k := breakClass c
  { last := k
    pictograph := isPictograph c || (s.pictograph && k = .extend)
    joined := s.pictograph && k = .joiner
    oddRegional := k = .regional && !s.oddRegional }

def ClusterState.joins (s : ClusterState) (c : Char) : Bool :=
  match s.last, breakClass c with
  | .carriageReturn, .lineFeed => true
  | .carriageReturn, _ => false
  | .lineFeed, _ => false
  | .control, _ => false
  | _, .carriageReturn => false
  | _, .lineFeed => false
  | _, .control => false
  | _, .extend => true
  | _, .joiner => true
  | _, .spacing => true
  | .prepended, _ => true
  | .leading, .leading => true
  | .leading, .vowel => true
  | .leading, .openSyllable => true
  | .leading, .closedSyllable => true
  | .openSyllable, .vowel => true
  | .openSyllable, .trailing => true
  | .vowel, .vowel => true
  | .vowel, .trailing => true
  | .closedSyllable, .trailing => true
  | .trailing, .trailing => true
  | .regional, .regional => s.oddRegional
  | _, _ => s.joined && isPictograph c

def ClusterState.rest (s : ClusterState) : List Char → List Char × List Char
  | [] => ([], [])
  | c :: cs =>
    if s.joins c then
      let (more, after) := (s.push c).rest cs
      (c :: more, after)
    else ([], c :: cs)

theorem ClusterState.length_rest_le (s : ClusterState) (cs : List Char) :
    (s.rest cs).2.length ≤ cs.length := by
  induction cs generalizing s with
  | nil => simp [rest]
  | cons c cs ih =>
    unfold rest
    split
    · exact Nat.le_trans (ih _) (Nat.le_succ _)
    · simp

theorem ClusterState.append_rest (s : ClusterState) (cs : List Char) :
    (s.rest cs).1 ++ (s.rest cs).2 = cs := by
  induction cs generalizing s with
  | nil => rfl
  | cons c cs ih =>
    unfold rest
    split
    · exact congrArg (c :: ·) (ih _)
    · rfl

def clusters : List Char → List (List Char)
  | [] => []
  | c :: cs =>
    let split := (ClusterState.start c).rest cs
    (c :: split.1) :: clusters split.2
termination_by cs => cs.length
decreasing_by exact Nat.lt_succ_of_le (ClusterState.length_rest_le _ _)

/-- The width of the first visible character. -/
def clusterWidth (cluster : List Char) : Nat :=
  ((cluster.map cellWidth).find? (0 < ·)).getD 0

def widthOf (parts : List (List Char)) : Nat :=
  (parts.map clusterWidth).foldr (· + ·) 0

def textWidth (s : String) : Nat := widthOf (clusters s.toList)

def fitting (w : Nat) : List (List Char) → List Char
  | [] => []
  | p :: ps => if clusterWidth p ≤ w then p ++ fitting (w - clusterWidth p) ps else []

/-- A cluster ends where another character starts the next one, whatever follows that character. -/
theorem ClusterState.rest_of_rest (s : ClusterState) {cs part after other : List Char}
    (h : s.rest cs = (part, after)) (hother : other.head? = none ∨ other.head? = after.head?) :
    s.rest (part ++ other) = (part, other) := by
  induction cs generalizing s part with
  | nil =>
    cases h
    have hnone : other.head? = none := hother.elim id id
    obtain rfl := List.head?_eq_none_iff.mp hnone
    rfl
  | cons c cs ih =>
    unfold rest at h
    split at h
    · next hjoins =>
      cases h
      rw [List.cons_append, rest, if_pos hjoins, ih (s.push c) rfl]
    · next hends =>
      cases h
      cases other with
      | nil => rfl
      | cons d ds =>
        obtain rfl : d = c := by simpa using hother
        rw [List.nil_append, rest, if_neg hends]

/-- What fits is a beginning of the text, and no wider than it should be. -/
theorem fitting_clusters (w : Nat) (cs : List Char) :
    fitting w (clusters cs) <+: cs ∧ widthOf (clusters (fitting w (clusters cs))) ≤ w := by
  induction cs using clusters.induct generalizing w with
  | case1 => simp [clusters, fitting, widthOf]
  | case2 c cs split ih =>
    have hclusters : clusters (c :: cs) = (c :: split.1) :: clusters split.2 := by
      rw [clusters]
    rw [hclusters, fitting]
    by_cases hroom : clusterWidth (c :: split.1) ≤ w
    · rw [if_pos hroom]
      obtain ⟨hbeginning, hwidth⟩ := ih (w - clusterWidth (c :: split.1))
      generalize fitting (w - clusterWidth (c :: split.1)) (clusters split.2) = kept at hbeginning hwidth
      have hnext : kept.head? = none ∨ kept.head? = split.2.head? := by
        cases kept with
        | nil => exact .inl rfl
        | cons d ds =>
          obtain ⟨more, hmore⟩ := hbeginning
          exact .inr (by rw [← hmore]; rfl)
      have hparted : (ClusterState.start c).rest cs = (split.1, split.2) := rfl
      have hsplit := (ClusterState.start c).rest_of_rest hparted hnext
      refine ⟨?_, ?_⟩
      · obtain ⟨more, hmore⟩ := hbeginning
        refine ⟨more, ?_⟩
        rw [List.append_assoc, hmore]
        exact congrArg (c :: ·) ((ClusterState.start c).append_rest cs)
      · have hkept : clusters (c :: split.1 ++ kept) = (c :: split.1) :: clusters kept := by
          rw [List.cons_append, clusters, hsplit]
        rw [hkept]
        exact Nat.add_le_of_le_sub' hroom hwidth
    · rw [if_neg hroom]
      exact ⟨List.nil_prefix, by simp [clusters, widthOf]⟩

/-- A text cut to `w` cells; a cut text ends in `tail`. -/
def truncate (s : String) (w : Nat) (tail : String) : String :=
  if textWidth s ≤ w then s
  else String.ofList (fitting (w - textWidth tail) (clusters s.toList)) ++ tail

/-- The widths that the tables of Unicode give. -/
instance typeface : Typeface where
  cellWidth := cellWidth
  textWidth := textWidth
  truncate := truncate
  cellWidth_le_two := cellWidth_le_two
  cellWidth_blank := by decide
  textWidth_empty := by simp [textWidth, clusters, widthOf]
  truncate_of_le _ _ _ h := if_pos h
  truncate_of_lt s w tail h := by
    obtain ⟨hbeginning, hwidth⟩ := fitting_clusters (w - textWidth tail) s.toList
    refine ⟨_, hbeginning, ?_, if_neg (Nat.not_le_of_lt h)⟩
    rwa [textWidth, String.toList_ofList]

end PocketBasic.Text.Unicode
