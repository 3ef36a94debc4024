import PocketBasic.Proofs.Machine.Stepped

/-!
# Runs side by side

Let two memories be related so that reading, setting and calling cannot tell them apart. Then no expression
and no statement can: in states that differ by such memories only, every step returns the same status and
the same signals, and it leaves states that differ so again.
-/

namespace PocketBasic

structure SameResult (R : Memory → Memory → Prop) {α : Type} (r r' : α × Memory) : Prop where
  value : r.1 = r'.1
  memory : R r.2 r'.2

/-- Related memories answer alike and stay related, whatever is done with both of them. -/
structure Memory.Indistinct (R : Memory → Memory → Prop) : Prop where
  lookup {m n : Memory} (h : R m n) (name : String) : SameResult R (m.lookup name) (n.lookup name)
  roll {m n : Memory} (h : R m n) :
    m.dice.roll.1 = n.dice.roll.1 ∧
      R { m with dice := m.dice.roll.2 } { n with dice := n.dice.roll.2 }
  set {m n : Memory} (h : R m n) (name : String) (v : Value) : R (m.set name v) (n.set name v)
  press {m n : Memory} (h : R m n) (key : Int) : R { m with key := key } { n with key := key }

/-- The states differ in their memories, which are related, and in nothing else. -/
def State.Beside (R : Memory → Memory → Prop) (s t : State) : Prop :=
  ∃ m, R s.memory m ∧ t = { s with memory := m }

/-- The same status and the same signals, and states side by side. -/
structure Outcome.Beside (R : Memory → Memory → Prop) (o o' : Outcome) : Prop where
  status : o.status = o'.status
  signals : o.signals = o'.signals
  state : o.state.Beside R o'.state

/-- Two results in the relation, or the same fault twice. -/
inductive AlikeFate {α : Type} (R : α → α → Prop) : Except Fault α → Except Fault α → Prop
  | ok {a b : α} (h : R a b) : AlikeFate R (.ok a) (.ok b)
  | error (fault : Fault) : AlikeFate R (.error fault) (.error fault)

variable {R : Memory → Memory → Prop}

theorem Memory.Indistinct.call (hR : Memory.Indistinct R) {m n : Memory} (h : R m n) (f : Value)
    (args : List Value) : SameResult R (f.call args m) (f.call args n) := by
  cases f with
  | function f =>
    simp only [Value.call, Builtin.call]
    cases f.unary? with
    | some g => exact ⟨rfl, h⟩
    | none =>
      obtain ⟨hdraw, hnext⟩ := hR.roll h
      simp only [hdraw]
      exact ⟨rfl, hnext⟩
  | _ => exact ⟨rfl, h⟩

mutual

theorem beside_eval (hR : Memory.Indistinct R) : (x : Expr) → {m n : Memory} → R m n →
    SameResult R (x.eval m) (x.eval n)
  | .number _ _, _, _, h | .text _ _, _, _, h => ⟨rfl, h⟩
  | .name _ id, _, _, h => hR.lookup h id
  | .binary _ op left right, _, _, h => by
    have hleft := beside_eval hR left h
    have hright := beside_eval hR right hleft.memory
    simp only [Expr.eval, hleft.value, hright.value]
    exact ⟨rfl, hright.memory⟩
  | .assign _ value _ target, _, _, h => by
    have hvalue := beside_eval hR value h
    simp only [Expr.eval, hvalue.value]
    exact ⟨rfl, hR.set hvalue.memory target _⟩
  | .call _ function args, _, _, h => by
    have hfunction := beside_eval hR function h
    have hargs := beside_evalList hR args hfunction.memory
    simp only [Expr.eval, hfunction.value, hargs.value]
    exact hR.call hargs.memory _ _

theorem beside_evalList (hR : Memory.Indistinct R) : (xs : List Expr) → {m n : Memory} → R m n →
    SameResult R (Expr.evalList xs m) (Expr.evalList xs n)
  | [], _, _, h => ⟨rfl, h⟩
  | x :: xs, _, _, h => by
    have hx := beside_eval hR x h
    have hxs := beside_evalList hR xs hx.memory
    simp only [Expr.evalList, hx.value, hxs.value]
    exact ⟨rfl, hxs.memory⟩

end

namespace State

variable {p : Program} {s t : State}

/-- A change that does not look at the memory keeps states side by side. -/
theorem Beside.map (h : s.Beside R t) (f : State → State)
    (hf : ∀ s m, f { s with memory := m } = { f s with memory := m }) : (f s).Beside R (f t) := by
  obtain ⟨n, hn, rfl⟩ := h
  have hsame := congrArg memory (hf s s.memory)
  have hmemory : (f s).memory = s.memory := hsame
  rw [← hmemory] at hn
  exact ⟨n, hn, hf s n⟩

theorem Beside.get_eq (h : s.Beside R t) {α : Type} (f : State → α)
    (hf : ∀ s m, f { s with memory := m } = f s) : f t = f s := by
  obtain ⟨n, -, rfl⟩ := h
  exact hf s n

theorem Beside.startSkipUnless (h : s.Beside R t) (b : Bool) :
    (s.startSkipUnless b).Beside R (t.startSkipUnless b) :=
  h.map (·.startSkipUnless b) fun _ _ => by cases b <;> rfl

theorem Beside.next (h : s.Beside R t) : s.next.Beside R t.next := h.map State.next fun _ _ => rfl

theorem Beside.pushHere (h : s.Beside R t) : (s.push s.pc).Beside R (t.push t.pc) :=
  h.map (fun s => s.push s.pc) fun _ _ => rfl

theorem beside_proceed (h : s.Beside R t) : s.proceed.Beside R t.proceed := ⟨rfl, rfl, h⟩

theorem beside_map_proceed {r r' : Except Fault State} (h : AlikeFate (Beside R) r r') :
    AlikeFate (Outcome.Beside R) (r.map proceed) (r'.map proceed) := by
  cases h with
  | ok h => exact .ok (beside_proceed h)
  | error fault => exact .error fault

theorem beside_ask (h : s.Beside R t) (prompt name : String) :
    (s.ask prompt name).Beside R (t.ask prompt name) :=
  ⟨rfl, rfl, h.map (fun s => { s with awaiting := some name }) fun _ _ => rfl⟩

theorem beside_halt (h : s.Beside R t) (p : Program) (fault : Fault) :
    (s.halt p fault).Beside R (t.halt p fault) :=
  ⟨rfl, rfl, h.map (fun s => { s with pc := p.length, awaiting := none, choice := none })
    fun _ _ => rfl⟩

theorem beside_pass (h : s.Beside R t) (p : Program) (command : Command) :
    (s.pass p command).Beside R (t.pass p command) :=
  h.map (·.pass p command) fun _ _ => by cases command <;> rfl

theorem beside_jump (h : s.Beside R t) (p : Program) (label : String) (line : Nat) :
    AlikeFate (Beside R) (s.jump p label line) (t.jump p label line) := by
  unfold jump
  cases p.labels.find? label with
  | some i => exact .ok (h.map (fun s => { s with pc := i }) fun _ _ => rfl)
  | none => exact .error _

theorem beside_runElse (h : s.Beside R t) : s.runElse.Beside R t.runElse := by
  obtain ⟨n, hn, rfl⟩ := h
  have hmarked : Beside R
      { s with blocks := s.pc :: s.blocks.tail, taken := s.taken.clear (s.blocks.headD 0) }
      { s with
        memory := n
        blocks := s.pc :: s.blocks.tail
        taken := s.taken.clear (s.blocks.headD 0) } := ⟨n, hn, rfl⟩
  exact (hmarked.startSkipUnless _).next

theorem beside_runPrompt (h : s.Beside R t) (vars : List String) :
    (s.runPrompt vars).Beside R (t.runPrompt vars) := by
  obtain ⟨n, hn, rfl⟩ := h
  unfold runPrompt
  cases vars[s.promptIndex]? with
  | none => exact ⟨rfl, rfl, n, hn, rfl⟩
  | some name =>
    simp only
    split <;> exact ⟨rfl, rfl, n, hn, rfl⟩

theorem beside_resume (h : s.Beside R t) (p : Program) (c : Choice) (selection : Int) :
    AlikeFate (Outcome.Beside R) (s.resume p c selection) (t.resume p c selection) := by
  have hchosen := h.map (fun s => { s with choice := none }) fun _ _ => rfl
  unfold resume
  split
  · exact .error _
  · split
    · exact .error _
    · exact beside_map_proceed (beside_jump hchosen p _ c.line)

def settle (s : State) (p : Program) : Except Fault Outcome → Outcome
  | .ok o => o
  | .error fault => s.halt p fault

theorem beside_settle (h : s.Beside R t) (p : Program) {r r' : Except Fault Outcome}
    (hr : AlikeFate (Outcome.Beside R) r r') : (s.settle p r).Beside R (t.settle p r') := by
  cases hr with
  | ok ho => exact ho
  | error fault => exact beside_halt h p fault

section Related

variable (hR : Memory.Indistinct R)
include hR

theorem Beside.setVar (h : s.Beside R t) (name : String) (v : Value) :
    (s.setVar name v).Beside R (t.setVar name v) := by
  obtain ⟨n, hn, rfl⟩ := h
  exact ⟨_, hR.set hn name v, rfl⟩

theorem Beside.eval (h : s.Beside R t) (x : Expr) :
    (s.eval x).1 = (t.eval x).1 ∧ (s.eval x).2.Beside R (t.eval x).2 := by
  obtain ⟨n, hn, rfl⟩ := h
  have hx := beside_eval hR x hn
  exact ⟨hx.value, _, hx.memory, rfl⟩

theorem Beside.evalList (h : s.Beside R t) (xs : List Expr) :
    (s.evalList xs).1 = (t.evalList xs).1 ∧ (s.evalList xs).2.Beside R (t.evalList xs).2 := by
  obtain ⟨n, hn, rfl⟩ := h
  have hxs := beside_evalList hR xs hn
  exact ⟨hxs.value, _, hxs.memory, rfl⟩

theorem Beside.lookup (h : s.Beside R t) (name : String) :
    (s.lookup name).1 = (t.lookup name).1 ∧ (s.lookup name).2.Beside R (t.lookup name).2 := by
  obtain ⟨n, hn, rfl⟩ := h
  have hname := hR.lookup hn name
  exact ⟨hname.value, _, hname.memory, rfl⟩

theorem Beside.withinBounds (h : s.Beside R t) (var : String) (stop step : Expr) :
    (s.withinBounds var stop step).1 = (t.withinBounds var stop step).1 ∧
      (s.withinBounds var stop step).2.Beside R (t.withinBounds var stop step).2 := by
  obtain ⟨hvar, h₁⟩ := h.lookup hR var
  obtain ⟨hstop, h₂⟩ := h₁.eval hR stop
  obtain ⟨hstep, h₃⟩ := h₂.eval hR step
  simp only [State.withinBounds, hvar, hstop, hstep]
  exact ⟨trivial, h₃⟩

theorem beside_header (h : s.Beside R t) (var : String) (stop step : Expr) :
    (((s.push s.pc).withinBounds var stop step).2.startSkipUnless
        ((s.push s.pc).withinBounds var stop step).1).next.Beside R
      (((t.push t.pc).withinBounds var stop step).2.startSkipUnless
        ((t.push t.pc).withinBounds var stop step).1).next := by
  obtain ⟨hinside, hbounds⟩ := h.pushHere.withinBounds hR var stop step
  rw [hinside]
  exact (hbounds.startSkipUnless _).next

theorem beside_runFor (h : s.Beside R t) (var : String) (start stop step : Expr) :
    (s.runFor var start stop step).Beside R (t.runFor var start stop step) := by
  obtain ⟨hv, hstart⟩ := h.eval hR start
  obtain ⟨n, hn, rfl⟩ := h
  unfold runFor
  cases hs : s.started.has s.pc with
  | true => exact beside_header hR ⟨n, hn, rfl⟩ var stop step
  | false =>
    have hset := (hstart.setVar hR var (.number (s.eval start).1.toNumber)).map
      (fun s => { s with started := s.started.mark s.pc }) fun _ _ => rfl
    simp only [Bool.false_eq_true, if_false, ← hv]
    exact beside_header hR hset var stop step

theorem beside_runIf (h : s.Beside R t) (p : Program) (cond : Expr) :
    (s.runIf p cond).Beside R (t.runIf p cond) := by
  obtain ⟨hv, hcond⟩ := h.eval hR cond
  have hpc := hcond.get_eq State.pc fun _ _ => rfl
  simp only [runIf, hv, hpc]
  split
  · have htest := hcond.map (fun s₁ => { s₁.push s₁.pc with
      taken := s₁.taken.put s₁.pc (t.eval cond).1.truthy
      pc := s₁.pc + 2 }) fun _ _ => rfl
    simp only [hpc] at htest
    exact htest.startSkipUnless _
  · exact hcond.map (fun s₁ => { s₁ with pc := _ }) fun _ _ => rfl

theorem beside_runEnd (h : s.Beside R t) (p : Program) (line : Nat) :
    AlikeFate (Beside R) (s.runEnd p line) (t.runEnd p line) := by
  obtain ⟨n, hn, rfl⟩ := h
  unfold runEnd
  cases s.blocks with
  | nil => exact .error _
  | cons i rest =>
    have hrest : Beside R { s with blocks := rest } { s with memory := n, blocks := rest } :=
      ⟨n, hn, rfl⟩
    simp only
    split
    · next cond _ =>
      obtain ⟨hv, hcond⟩ := hrest.eval hR cond
      rw [hv]
      refine .ok ?_
      split
      · exact hcond.next
      · exact hcond.map (fun s => { s with pc := i }) fun _ _ => rfl
    · exact .ok ⟨n, hn, rfl⟩
    · next var _ stop step _ =>
      obtain ⟨hinside, hbounds⟩ := hrest.withinBounds hR var stop step
      rw [hinside]
      split
      · obtain ⟨hd, hstep⟩ := hbounds.eval hR step
        obtain ⟨hv, hvar⟩ := hstep.lookup hR var
        rw [hd, hv]
        exact .ok ((hvar.setVar hR var _).map (fun s => { s with pc := i }) fun _ _ => rfl)
      · exact .ok (hbounds.map (fun s => { s with started := s.started.clear i, pc := s.pc + 1 })
          fun _ _ => rfl)
    · exact .ok ⟨n, hn, rfl⟩

theorem beside_run (h : s.Beside R t) (p : Program) (line : Nat) (command : Command) :
    AlikeFate (Outcome.Beside R) (s.run p line command) (t.run p line command) := by
  cases command with
  | label name => exact .ok (beside_proceed h.next)
  | goto name => exact beside_map_proceed (beside_jump h p name line)
  | repeatLoop cond => exact .ok (beside_proceed h.pushHere.next)
  | whileLoop cond =>
    obtain ⟨hv, hcond⟩ := h.pushHere.eval hR cond
    simp only [run, hv]
    exact .ok (beside_proceed (hcond.startSkipUnless _).next)
  | forLoop var start stop step => exact .ok (beside_proceed (beside_runFor hR h var start stop step))
  | ifTest cond => exact .ok (beside_proceed (beside_runIf hR h p cond))
  | thenMark => exact .ok (beside_proceed h.pushHere.next)
  | elseMark => exact .ok (beside_proceed (beside_runElse h))
  | endMark => exact beside_map_proceed (beside_runEnd hR h p line)
  | disp args =>
    obtain ⟨hvs, hargs⟩ := h.evalList hR args
    simp only [run, hvs]
    exact .ok ⟨rfl, rfl, hargs.next⟩
  | output row col value =>
    obtain ⟨hr, hrow⟩ := h.eval hR row
    obtain ⟨hc, hcol⟩ := hrow.eval hR col
    obtain ⟨hv, hvalue⟩ := hcol.eval hR value
    simp only [run, hr, hc, hv]
    exact .ok ⟨rfl, rfl, hvalue.next⟩
  | clearHome => exact .ok ⟨rfl, rfl, h.next⟩
  | pause value =>
    cases value with
    | none => exact .ok ⟨rfl, rfl, h.next⟩
    | some x =>
      obtain ⟨hv, hx⟩ := h.eval hR x
      simp only [run, hv]
      exact .ok ⟨rfl, rfl, hx.next⟩
  | menu title options =>
    obtain ⟨htexts, hoptions⟩ := h.evalList hR (options.map (·.text))
    obtain ⟨ht, htitle⟩ := hoptions.eval hR title
    simp only [run, htexts, ht]
    exact .ok ⟨rfl, rfl, htitle.map (fun s => { s with choice := some ⟨line, options⟩ })
      fun _ _ => rfl⟩
  | input question var =>
    cases question with
    | none => exact .ok (beside_ask h.next "?" var)
    | some x =>
      obtain ⟨hv, hx⟩ := h.eval hR x
      simp only [run, hv]
      exact .ok (beside_ask hx.next _ var)
  | prompt vars => exact .ok (beside_runPrompt h vars)
  | compute x =>
    obtain ⟨hv, hx⟩ := h.eval hR x
    simp only [run, hv]
    exact .ok (beside_proceed (hx.setVar hR Memory.answerName _).next)
  | program name => exact .error _

theorem beside_step (h : s.Beside R t) (p : Program) (selection : Int) :
    (s.step p selection).Beside R (t.step p selection) := by
  unfold step
  rw [h.get_eq awaiting fun _ _ => rfl, h.get_eq choice fun _ _ => rfl, h.get_eq pc fun _ _ => rfl,
    h.get_eq skipping fun _ _ => rfl]
  cases s.awaiting with
  | some name => exact ⟨rfl, rfl, h⟩
  | none =>
    cases s.choice with
    | some c => exact beside_settle h p (beside_resume h p c selection)
    | none =>
      cases p.statements[s.pc]? with
      | none => exact ⟨rfl, rfl, h⟩
      | some st =>
        cases s.skipping with
        | true => exact beside_proceed (beside_pass h p st.command)
        | false => exact beside_settle h p (beside_run hR h p st.line st.command)

theorem Beside.setInput (h : s.Beside R t) (line : String) :
    (s.setInput line).Beside R (t.setInput line) := by
  unfold State.setInput
  rw [h.get_eq awaiting fun _ _ => rfl]
  cases s.awaiting with
  | some name => exact (h.setVar hR name _).map (fun s => { s with awaiting := none }) fun _ _ => rfl
  | none => exact h

theorem Beside.setKey (h : s.Beside R t) (key : Int) : (s.setKey key).Beside R (t.setKey key) := by
  obtain ⟨n, hn, rfl⟩ := h
  exact ⟨{ n with key := key }, hR.press hn key, rfl⟩

end Related

end State

end PocketBasic
