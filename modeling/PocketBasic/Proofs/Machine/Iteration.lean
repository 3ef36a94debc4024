import PocketBasic.Proofs.Machine.Entries
import PocketBasic.Proofs.Machine.Stream

/-!
# The turns of a For loop

`ForLoop.Course` describes a host that runs a loop whose body comes to the End of the loop and leaves the
loop variable alone. The header is then run once for each value of the variable, in order, up to the first
value out of bounds. The body is run between two turns of the header, and passed over behind the last.
-/

namespace PocketBasic

/-- A For loop of a program, with the statements between its header and its End. -/
structure ForLoop (p : Program) where
  position : Nat
  var : String
  start : Expr
  stop : Expr
  step : Expr
  body : List Command
  code : Code p position ([.forLoop var start stop step] ++ body ++ [.endMark])
  balanced : Balanced body
  ordinary : var ≠ Memory.keyName

namespace ForLoop

variable {p : Program}

def endPosition (l : ForLoop p) : Nat := l.position + 1 + l.body.length

/-- The value of the loop variable at each turn. -/
def valueAt (first d : Float) : Nat → Float
  | 0 => first
  | k + 1 => valueAt first d k + d

/-- Whether a value is within the bounds of a loop. -/
def goesOn (last d x : Float) : Bool := if d < 0 then last ≤ x else x ≤ last

/-- In the memory, the end and the step of the loop have the given values, and to evaluate them changes
nothing. -/
structure Steady (l : ForLoop p) (last d : Float) (m : Memory) : Prop where
  stop : (l.stop.eval m).1.toNumber = last
  stop_memory : (l.stop.eval m).2 = m
  step : (l.step.eval m).1.toNumber = d
  step_memory : (l.step.eval m).2 = m

section Statements

variable (l : ForLoop p)

theorem header : ∃ line, p.statements[l.position]? =
    some ⟨line, .forLoop l.var l.start l.stop l.step⟩ := l.code.left.statement

theorem code_body : Code p (l.position + 1) l.body := l.code.left.right

theorem end_statement : ∃ line, p.statements[l.endPosition]? = some ⟨line, .endMark⟩ := by
  obtain ⟨_, line, -, -, hend⟩ := l.code.bracket
  exact ⟨line, hend⟩

theorem position_lt_endPosition : l.position < l.endPosition := by
  unfold endPosition
  omega

end Statements

section Statement

variable {l : ForLoop p} {s s' : State} {last d x : Float} {blocks : List Nat}

theorem atHeader_of_runsAt (h : s.RunsAt l.position blocks) : s.AtHeader p l.position where
  awaiting := h.awaiting
  choice := h.choice
  running := h.skipping
  pc := h.pc
  header := by
    obtain ⟨line, hst⟩ := l.header
    exact ⟨line, l.var, l.start, l.stop, l.step, hst⟩

theorem lookup_var (hx : s.memory.vars.get? l.var = some (.number x)) :
    s.lookup l.var = (.number x, s) := by
  simp only [State.lookup, Memory.lookup, if_neg l.ordinary, hx]

theorem eval_step (hsteady : l.Steady last d s.memory) :
    s.eval l.step = ((l.step.eval s.memory).1, s) := by
  simp only [State.eval, hsteady.step_memory]

theorem withinBounds_of_steady (hx : s.memory.vars.get? l.var = some (.number x))
    (hsteady : l.Steady last d s.memory) :
    s.withinBounds l.var l.stop l.step = (goesOn last d x, s) := by
  have hstop : s.eval l.stop = ((l.stop.eval s.memory).1, s) := by
    simp only [State.eval, hsteady.stop_memory]
  simp only [State.withinBounds, lookup_var hx, hstop, eval_step hsteady, hsteady.stop, hsteady.step,
    goesOn]
  rfl

theorem testBounds_of_steady (hx : s.memory.vars.get? l.var = some (.number x))
    (hsteady : l.Steady last d s.memory) :
    s.testBounds l.var l.stop l.step =
      ((s.push s.pc).startSkipUnless (goesOn last d x)).next.proceed := by
  have hbounds : (s.push s.pc).withinBounds l.var l.stop l.step = (goesOn last d x, s.push s.pc) :=
    withinBounds_of_steady hx hsteady
  simp only [State.testBounds, hbounds]

theorem startSkipUnless_of_runsAt {i : Nat} (hs : s.RunsAt i blocks) (b : Bool) :
    let s' := ((s.push s.pc).startSkipUnless b).next
    s'.memory = s.memory ∧ s'.pc = i + 1 ∧ s'.blocks = i :: blocks ∧
      s'.skip = (if b then none else some (blocks.length + 1)) ∧
      s'.awaiting = none ∧ s'.choice = none := by
  obtain ⟨rfl, rfl, hskip, hwait, hchoice⟩ := hs
  cases b with
  | true => exact ⟨rfl, rfl, rfl, hskip, hwait, hchoice⟩
  | false => exact ⟨rfl, rfl, rfl, rfl, hwait, hchoice⟩

theorem step_end_of_steady (hs : s.RunsAt l.endPosition (l.position :: blocks))
    (hx : s.memory.vars.get? l.var = some (.number x)) (hsteady : l.Steady last d s.memory)
    (hon : goesOn last d x = true) (selection : Int) :
    (s.step p selection).state = { s with
      blocks := blocks, memory := s.memory.set l.var (.number (x + d)), pc := l.position } := by
  obtain ⟨line, hst⟩ := l.end_statement
  obtain ⟨line', hheader⟩ := l.header
  let s₁ : State := { s with blocks := blocks }
  have hbounds : s₁.withinBounds l.var l.stop l.step = (goesOn last d x, s₁) :=
    withinBounds_of_steady hx hsteady
  have hvalue : s₁.lookup l.var = (.number x, s₁) := lookup_var hx
  have hd : s₁.eval l.step = ((l.step.eval s.memory).1, s₁) := eval_step hsteady
  have hrun : s.runEnd p line = .ok { s with
      blocks := blocks, memory := s.memory.set l.var (.number (x + d)), pc := l.position } := by
    simp only [State.runEnd, hs.blocks, hheader]
    rw [hbounds, hon, if_pos rfl, hd, hvalue, hsteady.step]
    rfl
  rw [hs.step_eq hst (congrArg (Except.map State.proceed) hrun)]
  rfl

theorem pass_end_of_skip (hpc : s.pc = l.endPosition) (hblocks : s.blocks = l.position :: blocks)
    (hskip : s.skip = some (blocks.length + 1)) (hwait : s.awaiting = none)
    (hchoice : s.choice = none) :
    (s.pass p .endMark).RunsAt (l.endPosition + 1) blocks ∧
      (s.pass p .endMark).started.has l.position = false := by
  obtain ⟨line, hheader⟩ := l.header
  have hlow : (some (blocks.length + 1)).filter (· ≤ blocks.length) = none :=
    Option.filter_some_neg (decide_eq_false (Nat.not_succ_le_self _))
  refine ⟨⟨congrArg (· + 1) hpc, ?_, ?_, hwait, hchoice⟩, ?_⟩
  · simp only [State.pass, hblocks, List.tail_cons]
  · simp only [State.pass, hblocks, List.tail_cons, hskip, hlow]
  · simp only [State.pass, hblocks, hheader, Marks.has_clear, bne_self_eq_false, Bool.false_and]

end Statement

section Course

variable (l : ForLoop p) (s : State) (calls : Nat → HostCall)

/-- Call number `t` runs the header of the loop. -/
def Turn (t : Nat) : Prop :=
  (calls t).IsStep ∧ (HostCall.after p s calls t).AtHeader p l.position

/-- Call number `t` runs the header for the `k`-th time, counted from zero. -/
inductive NthTurn : Nat → Nat → Prop
  | first : Turn l s calls 0 → NthTurn 0 0
  | next {k t u : Nat} : NthTurn k t → t < u → Turn l s calls u →
      (∀ r, t < r → r < u → ¬ Turn l s calls r) → NthTurn (k + 1) u

/-- Up to moment `t`, no End has closed the loop since the first call. -/
def UnderwayUntil (t : Nat) : Prop :=
  ∀ r, 0 < r → r ≤ t → (HostCall.after p s calls r).started.has l.position = true

/-- A host that runs the loop from its first call on, and goes on with steps. As long as the loop is under
way, its end and its step are steady, and its body comes to the End of the loop with the same blocks and
the same value of the variable, and not by way of the header. -/
structure Course (last d : Float) : Prop where
  begins : (calls 0).IsStep
  onward : ∀ t, ∃ u ≥ t, (calls u).IsStep
  leaves : ∀ t v, calls t ≠ .assign l.var v
  entered : s.RunsAt l.position s.blocks
  fresh : s.started.has l.position = false
  steady_first : l.Steady last d (s.begin l.var l.start).memory
  steady : ∀ t, 0 < t → UnderwayUntil l s calls t → (calls t).IsStep →
    (HostCall.after p s calls t).RunsAt l.position s.blocks ∨
      (HostCall.after p s calls t).RunsAt l.endPosition (l.position :: s.blocks) →
    l.Steady last d (HostCall.after p s calls t).memory
  runs_body : ∀ t, UnderwayUntil l s calls t → Turn l s calls t →
    (HostCall.after p s calls (t + 1)).RunsAt (l.position + 1) (l.position :: s.blocks) →
    ∃ u > t, (HostCall.after p s calls u).RunsAt l.endPosition (l.position :: s.blocks) ∧
      (HostCall.after p s calls u).memory.vars.get? l.var =
        (HostCall.after p s calls (t + 1)).memory.vars.get? l.var ∧
      ∀ r, t < r → r < u → (HostCall.after p s calls r).pc ≠ l.position

end Course

section Turns

open HostCall

variable {l : ForLoop p} {s : State} {calls : Nat → HostCall} {last d x : Float} {k t u : Nat}

/-- The value of the loop variable at turn number `k`. -/
def turnValue (l : ForLoop p) (s : State) (d : Float) (k : Nat) : Float :=
  valueAt (l.start.eval s.memory).1.toNumber d k

/-- What the header leaves when it is run for the `k`-th time by call number `t`. -/
structure Turned (l : ForLoop p) (s : State) (calls : Nat → HostCall) (last d : Float) (k t : Nat) :
    Prop where
  turn : NthTurn l s calls k t
  underway : UnderwayUntil l s calls t
  marked : (after p s calls (t + 1)).started.has l.position = true
  value : (after p s calls (t + 1)).memory.vars.get? l.var = some (.number (turnValue l s d k))
  pc : (after p s calls (t + 1)).pc = l.position + 1
  blocks : (after p s calls (t + 1)).blocks = l.position :: s.blocks
  skip : (after p s calls (t + 1)).skip =
    if goesOn last d (turnValue l s d k) then none else some (s.blocks.length + 1)
  awaiting : (after p s calls (t + 1)).awaiting = none
  choice : (after p s calls (t + 1)).choice = none

theorem UnderwayUntil.succ (h : UnderwayUntil l s calls t)
    (hlast : (after p s calls (t + 1)).started.has l.position = true) :
    UnderwayUntil l s calls (t + 1) := by
  intro r hpos hr
  rcases Nat.eq_or_lt_of_le hr with rfl | hlt
  · exact hlast
  · exact h r hpos (Nat.le_of_lt_succ hlt)

theorem turned_of_testBounds {s₁ : State} (hs₁ : s₁.RunsAt l.position s.blocks)
    (hx : s₁.memory.vars.get? l.var = some (.number (turnValue l s d k)))
    (hsteady : l.Steady last d s₁.memory) (hturn : NthTurn l s calls k t)
    (hat : Turn l s calls t) (hunderway : UnderwayUntil l s calls t)
    (hafter : after p s calls (t + 1) = (s₁.testBounds l.var l.stop l.step).state) :
    Turned l s calls last d k t := by
  rw [testBounds_of_steady hx hsteady] at hafter
  have hmarked : (after p s calls (t + 1)).started.has l.position = true :=
    (has_started_apply _ _).mpr (.inl ⟨hat.1, hat.2⟩)
  obtain ⟨hmemory, hpc, hblocks, hskip, hwait, hchoice⟩ :=
    startSkipUnless_of_runsAt hs₁ (goesOn last d (turnValue l s d k))
  exact ⟨hturn, hunderway, hmarked, by rw [hafter]; exact (congrArg (·.vars.get? l.var) hmemory).trans hx,
    hafter ▸ hpc, hafter ▸ hblocks, hafter ▸ hskip, hafter ▸ hwait, hafter ▸ hchoice⟩

/-- The first time the header is run, it sets the variable to the start value. -/
theorem Course.turned_first (h : Course l s calls last d) : Turned l s calls last d 0 0 := by
  obtain ⟨line, hst⟩ := l.header
  obtain ⟨selection, hcall⟩ := h.begins
  have hat : s.AtHeader p l.position := atHeader_of_runsAt h.entered
  have hturn : Turn l s calls 0 := ⟨h.begins, hat⟩
  have hset : (s.begin l.var l.start).RunsAt l.position s.blocks :=
    ⟨h.entered.pc, rfl, h.entered.skip, h.entered.awaiting, h.entered.choice⟩
  have hvalue : (s.begin l.var l.start).memory.vars.get? l.var =
      some (.number (turnValue l s d 0)) :=
    (Variables.get?_set _ _ _ _).trans (if_pos rfl)
  have hafter : after p s calls 1 = ((s.begin l.var l.start).testBounds l.var l.stop l.step).state := by
    rw [after, hcall, apply, after, State.step_atHeader selection hst hat, h.fresh]
    rfl
  exact turned_of_testBounds hset hvalue h.steady_first (.first hturn) hturn
    (fun r hpos hr => by omega) hafter

theorem Turned.runsAt (h : Turned l s calls last d k t)
    (hon : goesOn last d (turnValue l s d k) = true) :
    (after p s calls (t + 1)).RunsAt (l.position + 1) (l.position :: s.blocks) :=
  ⟨h.pc, h.blocks, by rw [h.skip, hon, if_pos rfl], h.awaiting, h.choice⟩

theorem Turned.underway_through_body (h : Turned l s calls last d k t)
    (hend : (after p s calls u).blocks = l.position :: s.blocks)
    (haway : ∀ r, t < r → r < u → (after p s calls r).pc ≠ l.position) : UnderwayUntil l s calls u := by
  have hkeeps (r : Nat) (hr : t + 1 ≤ r) :
      r ≤ u → (after p s calls r).KeepsLoop l.position s.blocks.length := by
    induction r, hr using Nat.le_induction with
    | base =>
      refine fun _ => ⟨fun j hj => ?_, fun _ => h.marked⟩
      rw [State.blockAt?_of_le (by rw [h.blocks]; exact hj)]
      simp
    | succ r hr ih => exact fun hr' => keepsLoop_apply (ih (Nat.le_of_succ_le hr')) (haway r hr hr') _
  -- The entry that stands at the End has stood there all the way.
  have hentry (r : Nat) (hr : t + 1 ≤ r) (hr' : r ≤ u) :
      (after p s calls r).blockAt? s.blocks.length = some l.position := by
    refine Nat.decreasingInduction' (fun q hqu hrq hq => ?_) hr' (State.blockAt?_top hend)
    exact blockAt?_of_apply (haway q (Nat.le_trans hr hrq) hqu) hq
  intro r hpos hr
  rcases Nat.lt_or_ge t r with hlt | hge
  · exact (hkeeps r hlt hr).started (hentry r hlt hr)
  · exact h.underway r hpos hge

theorem Course.exists_next_step (h : Course l s calls last d) {i : Nat} {blocks : List Nat}
    (hat : (after p s calls t).RunsAt i blocks) (hunderway : UnderwayUntil l s calls t) (ht : 0 < t) :
    ∃ u ≥ t, (calls u).IsStep ∧ (∀ r, t ≤ r → r < u → ¬ (calls r).IsStep) ∧
      (∀ r, t ≤ r → r ≤ u → (after p s calls r).RunsAt i blocks) ∧ UnderwayUntil l s calls u ∧
      (after p s calls u).memory.vars.get? l.var = (after p s calls t).memory.vars.get? l.var := by
  obtain ⟨u, hu, hstep, hnone, hlingers⟩ :=
    HostCall.exists_next_step hat.awaiting h.leaves (h.onward t)
  refine ⟨u, hu, hstep, hnone, fun r hr hr' => (hlingers r hr hr').runsAt hat, fun r hpos hr => ?_,
    (hlingers u hu (Nat.le_refl u)).get?⟩
  rcases Nat.lt_or_ge r t with hlt | hge
  · exact hunderway r hpos (Nat.le_of_lt hlt)
  · rw [(hlingers r hge hr).started]
    exact hunderway t ht (Nat.le_refl t)

/-- Within the bounds, the End leads back to the header with the next value. -/
theorem Course.back_to_header (h : Course l s calls last d) (hu : 0 < u)
    (hat : (after p s calls u).RunsAt l.endPosition (l.position :: s.blocks))
    (hunderway : UnderwayUntil l s calls u)
    (hx : (after p s calls u).memory.vars.get? l.var = some (.number x))
    (hon : goesOn last d x = true) :
    ∃ v > u, (after p s calls v).RunsAt l.position s.blocks ∧ UnderwayUntil l s calls v ∧
      (after p s calls v).memory.vars.get? l.var = some (.number (x + d)) ∧
      ∀ r, u ≤ r → r < v → (after p s calls r).pc ≠ l.position := by
  obtain ⟨v, huv, hstep, -, hstays, hunderway', hget⟩ := h.exists_next_step hat hunderway hu
  have hv : 0 < v := Nat.lt_of_lt_of_le hu huv
  have hend := hstays v huv (Nat.le_refl v)
  have hx' := hget.trans hx
  have hsteady := h.steady v hv hunderway' hstep (.inr hend)
  obtain ⟨selection, hcall⟩ := hstep
  have hafter : after p s calls (v + 1) = ((after p s calls v).step p selection).state := by
    rw [after, hcall, apply]
  rw [step_end_of_steady hend hx' hsteady hon selection] at hafter
  refine ⟨v + 1, Nat.lt_succ_of_le huv, ?_, hunderway'.succ ?_, ?_, fun r hr hr' => ?_⟩
  · rw [hafter]
    exact ⟨rfl, rfl, hend.skip, hend.awaiting, hend.choice⟩
  · rw [hafter]
    exact hunderway' v hv (Nat.le_refl v)
  · rw [hafter]
    exact (Variables.get?_set _ _ _ _).trans (if_pos rfl)
  · rw [(hstays r hr (Nat.le_of_lt_succ hr')).pc]
    exact Nat.ne_of_gt l.position_lt_endPosition

/-- A later turn of the header leaves the variable as it finds it. -/
theorem Course.turned_again (h : Course l s calls last d) (ht : 0 < t)
    (hat : (after p s calls t).RunsAt l.position s.blocks) (hunderway : UnderwayUntil l s calls t)
    (hx : (after p s calls t).memory.vars.get? l.var = some (.number (turnValue l s d k)))
    (hstep : (calls t).IsStep) (hturn : NthTurn l s calls k t) : Turned l s calls last d k t := by
  obtain ⟨line, hst⟩ := l.header
  have hheader := atHeader_of_runsAt hat
  have hsteady := h.steady t ht hunderway hstep (.inl hat)
  have hat' : Turn l s calls t := ⟨hstep, hheader⟩
  obtain ⟨selection, hcall⟩ := hstep
  have hafter : after p s calls (t + 1) =
      ((after p s calls t).testBounds l.var l.stop l.step).state := by
    rw [after, hcall, apply, State.step_atHeader selection hst hheader,
      hunderway t ht (Nat.le_refl t), if_pos rfl]
  exact turned_of_testBounds hat hx hsteady hturn hat' hunderway hafter

/-- The body is run between two turns, and the next turn finds the next value. -/
theorem Course.turned_next (h : Course l s calls last d) (hk : Turned l s calls last d k t)
    (hon : goesOn last d (turnValue l s d k) = true) :
    ∃ u v, t < u ∧ u < v ∧
      (after p s calls u).RunsAt l.endPosition (l.position :: s.blocks) ∧
      (after p s calls u).memory.vars.get? l.var = some (.number (turnValue l s d k)) ∧
      (∀ r, t < r → r < u → ¬ Turn l s calls r) ∧ Turned l s calls last d (k + 1) v := by
  have hturn : Turn l s calls t := by
    cases hk.turn <;> assumption
  obtain ⟨u, htu, hu, hget, haway⟩ := h.runs_body t hk.underway hturn (hk.runsAt hon)
  have hunderway := hk.underway_through_body hu.blocks haway
  have hvalue := hget.trans hk.value
  obtain ⟨w, huw, hw, hunderway', hvalue', haway'⟩ :=
    h.back_to_header (Nat.zero_lt_of_lt htu) hu hunderway hvalue hon
  have hpos : 0 < w := Nat.zero_lt_of_lt huw
  obtain ⟨v, hwv, hstep, hnone, hstays, hunderway'', hget'⟩ :=
    h.exists_next_step hw hunderway' hpos
  have hv := hstays v hwv (Nat.le_refl v)
  have hnext : NthTurn l s calls (k + 1) v := by
    refine .next hk.turn (by omega) ⟨hstep, atHeader_of_runsAt hv⟩ fun r hr hr' hat => ?_
    rcases Nat.lt_or_ge r u with hlt | hge
    · exact haway r hr hlt hat.2.pc
    · rcases Nat.lt_or_ge r w with hlt | hge'
      · exact haway' r hge hlt hat.2.pc
      · exact hnone r hge' hr' hat.1
  refine ⟨u, v, htu, by omega, hu, hvalue, fun r hr hr' hat => haway r hr hr' hat.2.pc, ?_⟩
  exact h.turned_again (Nat.lt_of_lt_of_le hpos hwv) hv hunderway'' (hget'.trans hvalue') hstep hnext

/-- The body is passed over behind the turn that finds the variable out of bounds. -/
theorem Course.leaves_loop (h : Course l s calls last d) (hk : Turned l s calls last d k t)
    (hoff : goesOn last d (turnValue l s d k) = false) :
    ∃ u > t, (∀ r, t < r → r < u → (after p s calls r).skipping = true) ∧
      (after p s calls u).RunsAt (l.endPosition + 1) s.blocks ∧
      (after p s calls u).memory.vars.get? l.var = some (.number (turnValue l s d k)) ∧
      (after p s calls u).started.has l.position = false := by
  obtain ⟨line, hst⟩ := l.end_statement
  have hskip : (after p s calls (t + 1)).skip = some (s.blocks.length + 1) := by
    rw [hk.skip, hoff]
    rfl
  have hheight : s.blocks.length + 1 ≤ (after p s calls (t + 1)).blocks.length := by
    rw [hk.blocks, List.length_cons]
  have hcode : Code p (after p s calls (t + 1)).pc l.body := hk.pc ▸ l.code_body
  obtain ⟨d', hd', v, htv, ⟨selection, hcall⟩, hpassed, hget, hskips⟩ :=
    exists_passedTo hskip hheight hk.awaiting hk.choice hcode l.balanced h.onward h.leaves
      l.body.length (Nat.le_refl _)
  rw [List.take_length] at hd'
  obtain rfl : d' = 0 := Option.some.inj (hd'.symm.trans l.balanced)
  have hpc : (after p s calls v).pc = l.endPosition := hpassed.pc.trans (by rw [hk.pc]; rfl)
  have hblocks : (after p s calls v).blocks = l.position :: s.blocks := by
    obtain ⟨inner, hblocks, hlength, -⟩ := hpassed.blocks
    rw [hblocks, List.length_eq_zero_iff.mp hlength, hk.blocks, List.nil_append]
  have hskip' := hpassed.skip.trans hskip
  have hwait := hpassed.awaiting.trans hk.awaiting
  have hchoice := hpassed.choice.trans hk.choice
  have hafter : after p s calls (v + 1) = (after p s calls v).pass p .endMark := by
    rw [after, hcall, apply, State.step_of_skipping hwait hchoice (hskips v htv (Nat.le_refl v))
      (hpc ▸ hst)]
    rfl
  obtain ⟨hruns, hfresh⟩ := pass_end_of_skip hpc hblocks hskip' hwait hchoice
  refine ⟨v + 1, by omega, fun r hr hr' => hskips r hr (by omega), hafter ▸ hruns, ?_, hafter ▸ hfresh⟩
  rw [hafter, State.memory_pass]
  exact hget.trans hk.value

theorem Course.exists_turned (h : Course l s calls last d) (n : Nat)
    (hn : ∀ k < n, goesOn last d (turnValue l s d k) = true) : ∃ t, Turned l s calls last d n t := by
  induction n with
  | zero => exact ⟨0, h.turned_first⟩
  | succ n ih =>
    obtain ⟨t, ht⟩ := ih fun k hk => hn k (Nat.lt_succ_of_lt hk)
    obtain ⟨_, v, -, -, -, -, -, hv⟩ := h.turned_next ht (hn n (Nat.lt_succ_self n))
    exact ⟨v, hv⟩

/-- The iteration law. While the values of the variable are within the bounds, the header is run once for
each of them, in order, and the body once behind each turn. When a value is out of bounds, the header with
that value is the last; the body is passed over, and the program goes on behind the End with the blocks from
before the loop. The loop is then not marked as started, so the header sets the variable to the start when
it is run again. -/
theorem iterates (h : Course l s calls last d) (n : Nat)
    (hn : ∀ k < n, goesOn last d (turnValue l s d k) = true) :
    (∀ k ≤ n, ∃ t, NthTurn l s calls k t ∧
      (after p s calls (t + 1)).memory.vars.get? l.var = some (.number (turnValue l s d k)) ∧
      (k < n → (after p s calls (t + 1)).RunsAt (l.position + 1) (l.position :: s.blocks) ∧
        ∃ u > t, (after p s calls u).RunsAt l.endPosition (l.position :: s.blocks) ∧
          (after p s calls u).memory.vars.get? l.var = some (.number (turnValue l s d k)) ∧
          ∀ r, t < r → r < u → ¬ Turn l s calls r)) ∧
      (goesOn last d (turnValue l s d n) = false → ∃ t u, NthTurn l s calls n t ∧ t < u ∧
        (∀ r, t < r → r < u → (after p s calls r).skipping = true) ∧
        (after p s calls u).RunsAt (l.endPosition + 1) s.blocks ∧
        (after p s calls u).memory.vars.get? l.var = some (.number (turnValue l s d n)) ∧
        (after p s calls u).started.has l.position = false ∧
        ∀ (s' : State) selection, s'.AtHeader p l.position →
          s'.started = (after p s calls u).started →
          s'.step p selection = (s'.begin l.var l.start).testBounds l.var l.stop l.step) := by
  constructor
  · intro k hk
    obtain ⟨t, ht⟩ := h.exists_turned k fun j hj => hn j (Nat.lt_of_lt_of_le hj hk)
    refine ⟨t, ht.turn, ht.value, fun hlt => ⟨ht.runsAt (hn k hlt), ?_⟩⟩
    obtain ⟨u, -, htu, -, hu, hvalue, hnone, -⟩ := h.turned_next ht (hn k hlt)
    exact ⟨u, htu, hu, hvalue, hnone⟩
  · intro hoff
    obtain ⟨t, ht⟩ := h.exists_turned n hn
    obtain ⟨u, htu, hskips, hruns, hvalue, hfresh⟩ := h.leaves_loop ht hoff
    refine ⟨t, u, ht.turn, htu, hskips, hruns, hvalue, hfresh, fun s' selection hat hsame => ?_⟩
    obtain ⟨line, hst⟩ := l.header
    rw [State.step_atHeader selection hst hat, hsame, hfresh]
    rfl

end Turns

end ForLoop

/-- A loop that counts down, with a body that clears the screen. -/
def countdown : Program :=
  ⟨[⟨1, .forLoop "I" (.number 1 2) (.number 1 1) (.number 1 (-1))⟩, ⟨2, .clearHome⟩, ⟨3, .endMark⟩], []⟩

def countdownLoop : ForLoop countdown where
  position := 0
  var := "I"
  start := .number 1 2
  stop := .number 1 1
  step := .number 1 (-1)
  body := [.clearHome]
  code := ⟨[], [], rfl, rfl⟩
  balanced := rfl
  ordinary := by decide

def beforeCountdown : State := .initial ⟨fun _ => 0, 0⟩

theorem course_countdown :
    countdownLoop.Course beforeCountdown (fun _ => .step 0) 1 (-1) where
  begins := ⟨0, rfl⟩
  onward t := ⟨t, Nat.le_refl t, 0, rfl⟩
  leaves t v := by simp
  entered := ⟨rfl, rfl, rfl, rfl, rfl⟩
  fresh := rfl
  steady_first := ⟨rfl, rfl, rfl, rfl⟩
  steady t _ _ _ _ := ⟨rfl, rfl, rfl, rfl⟩
  runs_body t _ _ hbody := by
    have hcleared : HostCall.after countdown beforeCountdown (fun _ => .step 0) (t + 2) =
        (HostCall.after countdown beforeCountdown (fun _ => .step 0) (t + 1)).next := by
      have hst : countdown.statements[1]? = some ⟨2, .clearHome⟩ := rfl
      exact congrArg Outcome.state (hbody.step_eq hst rfl 0)
    refine ⟨t + 2, by omega, ?_, by rw [hcleared]; rfl, fun r hr hr' => ?_⟩
    · rw [hcleared]
      exact ⟨congrArg (· + 1) hbody.pc, hbody.blocks, hbody.skip, hbody.awaiting, hbody.choice⟩
    · obtain rfl : r = t + 1 := by omega
      rw [hbody.pc]
      exact Nat.succ_ne_self 0

theorem iterates_countdown :
    countdownLoop.Course beforeCountdown (fun _ => .step 0) 1 (-1) ∧
      (∀ k < 2, ForLoop.goesOn 1 (-1) (countdownLoop.turnValue beforeCountdown (-1) k) = true) ∧
      ∃ t u, countdownLoop.NthTurn beforeCountdown (fun _ => .step 0) 2 t ∧ t < u ∧
        (HostCall.after countdown beforeCountdown (fun _ => .step 0) u).RunsAt 3 [] ∧
        (HostCall.after countdown beforeCountdown (fun _ => .step 0) u).memory.vars.get? "I" =
          some (.number (countdownLoop.turnValue beforeCountdown (-1) 2)) := by
  have hon : ∀ k < 2, ForLoop.goesOn 1 (-1) (countdownLoop.turnValue beforeCountdown (-1) k) = true := by
    decide
  have hoff : ForLoop.goesOn 1 (-1) (countdownLoop.turnValue beforeCountdown (-1) 2) = false := by
    decide
  obtain ⟨t, u, hturn, htu, -, hruns, hvalue, -⟩ := (ForLoop.iterates course_countdown 2 hon).2 hoff
  exact ⟨course_countdown, hon, t, u, hturn, htu, hruns, hvalue⟩

end PocketBasic
