import PocketBasic.Proofs.Program.Stretches

/-!
# Where an expression breaks

The nodes of an expression stand on lines of the tokens that it is read from. Each reader of the
expression levels keeps track of these tokens, and the operands of a level are read by the level below
it. So the tokens of a whole expression break only where one of them asks for more, or in front of a
closing parenthesis.
-/

namespace PocketBasic

mutual

/-- The lines of the nodes of an expression, its own first. -/
def Expr.lines : Expr → List Nat
  | .number line _ => [line]
  | .text line _ => [line]
  | .name line _ => [line]
  | .binary line _ left right => line :: (left.lines ++ right.lines)
  | .assign line value targetLine _ => line :: targetLine :: value.lines
  | .call line function args => line :: (function.lines ++ Expr.listLines args)

def Expr.listLines : List Expr → List Nat
  | [] => []
  | x :: xs => x.lines ++ Expr.listLines xs

end

namespace Reader

section Levels

variable {start : Cursor} {lines : List Nat} {item : Reader Expr}

/-- Where more is expected, the reader reads an expression and covers its lines. -/
def CoversExpr (start : Cursor) (item : Reader Expr) : Prop :=
  ∀ lines, Ensures (Expects start lines) item fun x => Covers start (x.lines ++ lines)

/-- What has been read is whole, or goes on behind the token that was just read. -/
def GoesOn {α : Type} (start : Cursor) (lines : List Nat) : Option α → Cursor → Prop
  | none, c => Covers start lines c
  | some _, c => Expects start (c.line :: lines) c

theorem goesOn_sameLine {α : Type} {f : Lexeme → Option α}
    (hf : ∀ x a, f x = some a → x.goesOn = true) :
    Ensures (Covers start lines) (acceptSameLine? f) (GoesOn start lines) :=
  ensures_acceptSameLine? (fun _ t _ a hc hrest hline ht => hc.more hrest hline (hf t.lexeme a ht))
    fun _ hc => hc

theorem expects_currentLine : Ensures (fun c => Expects start (c.line :: lines) c) currentLine
    fun line c => Expects start (line :: lines) c :=
  ensures_currentLine fun _ hc => hc

theorem covers_leftChain {op? : Lexeme → Option BinaryOp}
    (hop : ∀ x op, op? x = some op → x.goesOn = true) (h : CoversExpr start item) (n : Nat)
    (left : Expr) :
    Ensures (Covers start (left.lines ++ lines)) (leftChain op? item n left)
      fun x => Covers start (x.lines ++ lines) := by
  induction n generalizing left with
  | zero => exact ensures_pure fun c hc => hc
  | succ n ih =>
    refine ensures_bind (goesOn_sameLine hop) fun o => ?_
    cases o with
    | none => exact ensures_pure fun c hc => hc
    | some op =>
      refine ensures_bind expects_currentLine fun line => ensures_bind (h _) fun right => ?_
      refine (ih (.binary line op left right)).of_imp fun c hc => hc.mono ?_
      simp only [Expr.lines]
      grind

theorem covers_comparison (h : CoversExpr start item) : CoversExpr start (comparison item) := by
  intro lines
  refine ensures_bind (h lines) fun left => ?_
  refine ensures_bind (goesOn_sameLine fun _ _ => Lexeme.goesOn_of_comparison?) fun o => ?_
  cases o with
  | none => exact ensures_pure fun c hc => hc
  | some sign =>
    refine ensures_bind expects_currentLine fun line => ?_
    -- Behind the sign all branches go on in the same way.
    have hright (sign : BinaryOp) : Ensures (Expects start (line :: (left.lines ++ lines)))
        (do
          let op ← (pure sign : Reader BinaryOp)
          let right ← item
          pure (.binary line op left right) : Reader Expr)
        fun x => Covers start (x.lines ++ lines) := by
      refine ensures_bind (Q := fun _ => Expects start (line :: (left.lines ++ lines)))
        (ensures_pure fun c hc => hc) fun op => ?_
      refine ensures_bind (h _) fun right => ensures_pure fun c hc => hc.mono ?_
      simp only [Expr.lines]
      grind
    cases sign with
    | bang =>
      refine ensures_bind (ensures_expect fun c t ts u hc hrest ht => ?_) fun u => hright .ne
      have hmore := hc.more hrest (Lexeme.goesOn_of_equals? ht)
      exact hmore.mono fun l hl => List.mem_cons_of_mem _ hl
    | equals => exact hright .eq
    | greater => exact hright .gt
    | less => exact hright .lt
    | greaterEquals => exact hright .ge
    | lessEquals => exact hright .le

theorem covers_product (h : CoversExpr start item) (n : Nat) : CoversExpr start (product item n) :=
  fun _ => ensures_bind (covers_comparison h _) fun left =>
    covers_leftChain (fun _ _ => Lexeme.goesOn_of_productOp?) (covers_comparison h) n left

theorem covers_sum (h : CoversExpr start item) (n : Nat) : CoversExpr start (sum item n) :=
  fun _ => ensures_bind (covers_product h n _) fun left =>
    covers_leftChain (fun _ _ => Lexeme.goesOn_of_sumOp?) (covers_product h n) n left

theorem covers_assignment (h : CoversExpr start item) (n : Nat) :
    CoversExpr start (assignment item n) := by
  induction n with
  | zero => exact covers_sum h 0
  | succ n ih =>
    intro lines
    refine ensures_bind (covers_sum h (n + 1) lines) fun value => ?_
    refine ensures_bind (goesOn_sameLine fun _ _ => Lexeme.goesOn_of_arrow?) fun o => ?_
    cases o with
    | none => exact ensures_pure fun c hc => hc
    | some u =>
      -- The target is read like any other expression, and only a name is taken.
      intro c x c' hc hx
      simp only at hx
      split at hx
      · cases hx
      · next line target c₁ htarget =>
        cases hx
        refine (ih _ c _ _ hc htarget).mono ?_
        simp only [Expr.lines]
        grind
      · cases hx

theorem lines_commaList (h : CoversExpr start item) (n : Nat) (lines : List Nat) :
    Ensures (Expects start lines) (commaList item n)
      fun xs => Covers start (Expr.listLines xs ++ lines) := by
  induction n generalizing lines with
  | zero =>
    refine ensures_bind (h lines) fun x => ensures_pure fun c hc => hc.mono ?_
    simp only [Expr.listLines]
    grind
  | succ n ih =>
    refine ensures_bind (h lines) fun x => ?_
    refine ensures_bind (goesOn_sameLine fun _ _ => Lexeme.goesOn_of_comma?) fun o => ?_
    cases o with
    | none =>
      refine ensures_pure fun c hc => hc.mono ?_
      simp only [Expr.listLines]
      grind
    | some u =>
      have hrest : Ensures (fun c => Expects start (c.line :: (x.lines ++ lines)) c)
          (commaList item n) fun xs => Covers start (Expr.listLines xs ++ (x.lines ++ lines)) :=
        (ih _).of_imp fun c hc => hc.mono fun l hl => List.mem_cons_of_mem _ hl
      refine ensures_bind hrest fun xs => ensures_pure fun c hc => hc.mono ?_
      simp only [Expr.listLines]
      grind

theorem covers_closeParen :
    Ensures (Covers start lines) closeParen fun _ => Covers start lines :=
  ensures_expect fun _ _ _ _ hc hrest ht =>
    (hc.close hrest (Lexeme.eq_of_closeParen? ht)).mono fun _ hl => List.mem_cons_of_mem _ hl

theorem lines_arguments (h : CoversExpr start item) (n : Nat) (lines : List Nat) :
    Ensures (Expects start lines) (arguments item n)
      fun xs => Covers start (Expr.listLines xs ++ lines) := by
  refine ensures_bind
    (Q := fun o c => o.elim (Expects start lines c) fun _ => Covers start lines c)
    (ensures_accept? (fun c t ts u hc hrest ht =>
      (hc.token hrest).mono fun l hl => List.mem_cons_of_mem _ hl) fun c hc => hc) fun o => ?_
  cases o with
  | some u => exact ensures_pure fun c hc => hc
  | none =>
    exact ensures_bind (lines_commaList h n lines) fun xs =>
      ensures_bind covers_closeParen fun u => ensures_pure fun c hc => hc

theorem covers_calls (h : CoversExpr start item) (n : Nat) (x : Expr) :
    Ensures (Covers start (x.lines ++ lines)) (calls item n x)
      fun y => Covers start (y.lines ++ lines) := by
  induction n generalizing x with
  | zero => exact ensures_pure fun c hc => hc
  | succ n ih =>
    refine ensures_bind (goesOn_sameLine fun _ _ => Lexeme.goesOn_of_openParen?) fun o => ?_
    cases o with
    | none => exact ensures_pure fun c hc => hc
    | some u =>
      refine ensures_bind expects_currentLine fun line =>
        ensures_bind (lines_arguments h n _) fun args => ?_
      refine (ih (.call line x args)).of_imp fun c hc => hc.mono ?_
      simp only [Expr.lines]
      grind

theorem covers_term {operand : Reader Expr} (h : CoversExpr start item)
    (hoperand : CoversExpr start operand) : CoversExpr start (term item operand) := by
  intro lines c x c' hc hx
  unfold term at hx
  split at hx
  · cases hx
  · next t ts hrest =>
    have hleaf : Covers start (t.line :: lines) ⟨t.line, ts⟩ := hc.token hrest
    split at hx
    · cases hx
      exact hleaf
    · cases hx
      exact hleaf
    · cases hx
      exact hleaf
    · next hlex =>
      have hgoes : t.lexeme.goesOn = true := by rw [hlex]; rfl
      have hparen : Ensures (Expects start (t.line :: lines))
          (do
            let x ← item
            closeParen
            pure x) fun x => Covers start (x.lines ++ (t.line :: lines)) :=
        ensures_bind (h _) fun x => ensures_bind covers_closeParen fun u => ensures_pure fun c hc => hc
      refine (hparen _ _ _ (hc.more hrest hgoes) hx).mono ?_
      grind
    · next hlex =>
      have hgoes : t.lexeme.goesOn = true := by rw [hlex]; rfl
      have hminus : Ensures (Expects start (t.line :: lines))
          (do
            let x ← operand
            pure (.binary t.line .sub (.number t.line 0) x) : Reader Expr)
          fun x => Covers start (x.lines ++ lines) := by
        refine ensures_bind (hoperand _) fun x => ensures_pure fun c hc => hc.mono ?_
        simp only [Expr.lines]
        grind
      exact hminus _ _ _ (hc.more hrest hgoes) hx
    · cases hx

theorem covers_operand (n : Nat) : CoversExpr start (operand n) := by
  induction n with
  | zero => exact fun _ => ensures_fail _
  | succ n ih =>
    have hexpr := covers_assignment ih n
    exact fun _ => ensures_bind (covers_term hexpr ih _) fun x => covers_calls hexpr n x

end Levels

theorem covers_expr {n : Nat} {c c' : Cursor} {x : Expr} (h : expr n c = .ok (x, c')) :
    Covers c x.lines c' :=
  (covers_assignment (covers_operand n) n [] c x c' (expects_start c) h).mono (by simp)

end Reader

end PocketBasic
