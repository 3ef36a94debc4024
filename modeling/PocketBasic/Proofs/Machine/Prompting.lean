import Mathlib
import PocketBasic.Proofs.Machine.Alike
import PocketBasic.Proofs.Machine.Passing

/-!
# A Prompt asks for its variables one by one

A Prompt is run once for each of its variables: it shows the name of the variable and waits for an answer,
which is bound to the variable. Whatever a host does in between, no variable is passed over or asked for
twice, and every answer goes to the variable that was asked for.
-/

namespace PocketBasic

def question (name : String) : Signal := .display (.string (name ++ "=?"))

/-- Variables with the answers that have been given for the first of them. -/
def Variables.answered (v : Variables) (names lines : List String) : Variables :=
  (names.zip lines).foldl (fun v (name, line) => v.set name (.ofInput line)) v

namespace State

/-- A machine about to run a Prompt of which nothing has been asked yet. -/
structure AtPrompt (p : Program) (vars : List String) (s : State) : Prop where
  statement : ∃ line, p.statements[s.pc]? = some ⟨line, .prompt vars⟩
  running : s.skipping = false
  awaiting : s.awaiting = none
  choice : s.choice = none
  fresh : s.promptIndex = 0

/-- The states of a Prompt that started in `s` and has had `i` answers. -/
inductive Within (s : State) (vars : List String) (i : Nat) : State → Prop
  | asks (m : Memory) (hi : i < vars.length) : Within s vars i { s with memory := m, promptIndex := i }
  | waits (m : Memory) {name : String} (hname : vars[i]? = some name) (hi : i + 1 < vars.length) :
      Within s vars i { s with memory := m, promptIndex := i + 1, awaiting := some name }
  /-- When the last variable is asked for, the program has already gone on. -/
  | waitsLast (m : Memory) {name : String} (hname : vars[i]? = some name) (hi : i + 1 = vars.length) :
      Within s vars i { s with memory := m, pc := s.pc + 1, promptIndex := 0, awaiting := some name }

variable {p : Program} {vars : List String} {s s' : State} {i : Nat}

theorem AtPrompt.within (h : s.AtPrompt p vars) (hvars : vars ≠ []) : Within s vars 0 s := by
  have hs : ({ s with memory := s.memory, promptIndex := 0 } : State) = s := by rw [← h.fresh]
  exact hs ▸ Within.asks s.memory (List.length_pos_iff.mpr hvars)

theorem Within.lt (hw : Within s vars i s') : i < vars.length := by
  cases hw with
  | asks m hi => exact hi
  | waits m hname hi => omega
  | waitsLast m hname hi => omega

/-- What a step makes of a state that is to ask for the variable. -/
theorem step_asks (h : s.AtPrompt p vars) (m : Memory) {name : String} (hname : vars[i]? = some name)
    (selection : Int) :
    ∃ s'', State.step { s with memory := m, promptIndex := i } p selection =
        ⟨s'', .awaiting, [question name]⟩ ∧
      Within s vars i s'' ∧ s''.awaiting = some name ∧ s''.memory = m := by
  obtain ⟨line, hst⟩ := h.statement
  obtain ⟨hi, -⟩ := List.getElem?_eq_some_iff.mp hname
  have hstep {o : Outcome} (hrun : runPrompt { s with memory := m, promptIndex := i } vars = o) :
      State.step { s with memory := m, promptIndex := i } p selection = o :=
    step_of_running (s := { s with memory := m, promptIndex := i }) h.awaiting h.choice h.running hst
      (congrArg Except.ok hrun) selection
  by_cases hlast : i + 1 = vars.length
  · refine ⟨_, hstep ?_, .waitsLast m hname hlast, rfl, rfl⟩
    simp only [runPrompt, hname, if_pos hlast]
    rfl
  · refine ⟨_, hstep ?_, .waits m hname (by omega), rfl, rfl⟩
    simp only [runPrompt, hname, if_neg hlast]
    rfl

/-- A step asks for the next variable if nothing is pending, and does nothing otherwise. -/
theorem Within.step (h : s.AtPrompt p vars) (hw : Within s vars i s') (selection : Int) :
    s'.isAwaiting = true ∧ s'.step p selection = ⟨s', .awaiting, []⟩ ∨
      s'.isAwaiting = false ∧ ∃ name s'', vars[i]? = some name ∧
        s'.step p selection = ⟨s'', .awaiting, [question name]⟩ ∧ Within s vars i s'' ∧
        s''.awaiting = some name ∧ s''.memory = s'.memory := by
  cases hw with
  | asks m hi =>
    have hname : vars[i]? = some vars[i] := List.getElem?_eq_getElem hi
    have hwait : s.isAwaiting = false := congrArg Option.isSome h.awaiting
    obtain ⟨s'', hstep, hwithin, hasked, hmemory⟩ := step_asks h m hname selection
    exact .inr ⟨hwait, vars[i], s'', hname, hstep, hwithin, hasked, hmemory⟩
  | waits m hname hi => exact .inl ⟨rfl, rfl⟩
  | waitsLast m hname hi => exact .inl ⟨rfl, rfl⟩

/-- A line of input is bound to the variable that was asked for last, and the next one can be asked for. -/
theorem Within.setInput (h : s.AtPrompt p vars) (hw : Within s vars i s') (line : String) :
    s'.isAwaiting = false ∧ s'.setInput line = s' ∨
      s'.isAwaiting = true ∧ ∃ name, vars[i]? = some name ∧
        (s'.setInput line).memory = s'.memory.set name (.ofInput line) ∧
        (s'.setInput line).isAwaiting = false ∧
        (i + 1 < vars.length → Within s vars (i + 1) (s'.setInput line)) := by
  cases hw with
  | asks m hi =>
    refine .inl ⟨by rw [isAwaiting, h.awaiting]; rfl, ?_⟩
    simp only [State.setInput, h.awaiting]
  | @waits m name hname hi =>
    refine .inr ⟨rfl, name, hname, rfl, rfl, fun hlt => ?_⟩
    have hs : ({ s with memory := m, promptIndex := i + 1, awaiting := some name } : State).setInput line =
        { s with memory := m.set name (.ofInput line), promptIndex := i + 1 } := by
      rw [State.setInput, ← h.awaiting]
    rw [hs]
    exact .asks _ hlt
  | waitsLast m hname hi => exact .inr ⟨rfl, _, hname, rfl, rfl, fun hlt => by omega⟩

theorem Within.pc (h : s.AtPrompt p vars) (hw : Within s vars i s') :
    s'.pc = if (i + if s'.isAwaiting then 1 else 0) = vars.length then s.pc + 1 else s.pc := by
  cases hw with
  | asks m hi =>
    have hwait : ({ s with memory := m, promptIndex := i } : State).isAwaiting = false :=
      congrArg Option.isSome h.awaiting
    rw [hwait]
    exact (if_neg (Nat.ne_of_lt hi)).symm
  | waits m hname hi => exact (if_neg (Nat.ne_of_lt hi)).symm
  | waitsLast m hname hi => exact (if_pos hi).symm

theorem Within.setKey (hw : Within s vars i s') (key : Int) : Within s vars i (s'.setKey key) := by
  cases hw with
  | asks m hi => exact .asks _ hi
  | waits m hname hi => exact .waits _ hname hi
  | waitsLast m hname hi => exact .waitsLast _ hname hi

end State

namespace HostCall

/-- The line with which a call answers a pending question. -/
def answer? (s : State) : HostCall → Option String
  | .input line => if s.isAwaiting then some line else none
  | _ => none

/-- The answers that have been given before a moment. -/
def answersBy (p : Program) (s : State) (calls : Nat → HostCall) : Nat → List String
  | 0 => []
  | t + 1 => answersBy p s calls t ++ ((calls t).answer? (after p s calls t)).toList

/-- What has been asked of the screen and the menu before a moment. -/
def signalsBy (p : Program) (s : State) (calls : Nat → HostCall) : Nat → List Signal
  | 0 => []
  | t + 1 => signalsBy p s calls t ++ ((calls t).shown p (after p s calls t)).signals

variable {p : Program} {s : State} {vars : List String} {calls : Nat → HostCall} {t : Nat}

/-- What has come of a Prompt, and what comes of the next call, at a moment before the last answer. -/
structure Interview (p : Program) (s : State) (vars answers : List String) (signals : List Signal)
    (s' : State) : Prop where
  /-- There is a question for each answer, and one more while an answer is pending. -/
  shown : signals = (vars.map question).take (answers.length + if s'.isAwaiting then 1 else 0)
  pc : s'.pc = if signals.length = vars.length then s.pc + 1 else s.pc
  bound : s'.memory.vars = s.memory.vars.answered vars answers
  waits : s'.isAwaiting = true → ∀ selection, s'.step p selection = ⟨s', .awaiting, []⟩
  asks : s'.isAwaiting = false → ∃ name, vars[answers.length]? = some name ∧ ∀ selection, ∃ s'',
    s'.step p selection = ⟨s'', .awaiting, [question name]⟩ ∧ s''.awaiting = some name ∧
      s''.memory = s'.memory
  ignores : s'.isAwaiting = false → ∀ line, s'.setInput line = s'
  binds : s'.isAwaiting = true → ∃ name, vars[answers.length]? = some name ∧ ∀ line,
    (s'.setInput line).isAwaiting = false ∧ ∀ other, (s'.setInput line).memory.vars.get? other =
      if other = name then some (.ofInput line) else s'.memory.vars.get? other

/-- How far a Prompt has come with the answers that have been given. -/
structure Progress (s : State) (vars answers : List String) (signals : List Signal) (s' : State) : Prop where
  within : s.Within vars answers.length s'
  shown : signals = (vars.map question).take (answers.length + if s'.isAwaiting then 1 else 0)
  bound : s'.memory.vars = s.memory.vars.answered vars answers

variable {answers : List String} {signals : List Signal} {s' : State}

theorem Progress.length_signals (h : Progress s vars answers signals s') :
    signals.length = answers.length + if s'.isAwaiting then 1 else 0 := by
  have hlt := h.within.lt
  rw [h.shown, List.length_take, List.length_map]
  split <;> omega

theorem Progress.interview (h : s.AtPrompt p vars) (hp : Progress s vars answers signals s') :
    Interview p s vars answers signals s' where
  shown := hp.shown
  pc := by rw [hp.length_signals, hp.within.pc h]
  bound := hp.bound
  waits hwait selection := by
    rcases hp.within.step h selection with ⟨-, hstep⟩ | ⟨hnone, -⟩
    · exact hstep
    · rw [hnone] at hwait
      cases hwait
  asks hnone := by
    refine ⟨_, List.getElem?_eq_getElem hp.within.lt, fun selection => ?_⟩
    rcases hp.within.step h selection with ⟨hwait, -⟩ | ⟨-, name, s'', hname, hstep, -, hasked, hmemory⟩
    · rw [hnone] at hwait
      cases hwait
    · rw [List.getElem?_eq_getElem hp.within.lt, Option.some.injEq] at hname
      subst hname
      exact ⟨s'', hstep, hasked, hmemory⟩
  ignores hnone line := by
    rcases hp.within.setInput h line with ⟨-, hsame⟩ | ⟨hwait, -⟩
    · exact hsame
    · rw [hnone] at hwait
      cases hwait
  binds hwait := by
    refine ⟨_, List.getElem?_eq_getElem hp.within.lt, fun line => ?_⟩
    rcases hp.within.setInput h line with ⟨hnone, -⟩ | ⟨-, name, hname, hmemory, hnone, -⟩
    · rw [hnone] at hwait
      cases hwait
    · rw [List.getElem?_eq_getElem hp.within.lt, Option.some.injEq] at hname
      subst hname
      exact ⟨hnone, fun other => by rw [hmemory]; exact Variables.get?_set ..⟩

theorem answered_concat (v : Variables) {names lines : List String} {name : String}
    (hname : names[lines.length]? = some name) (line : String) :
    v.answered names (lines ++ [line]) = (v.answered names lines).set name (.ofInput line) := by
  induction lines generalizing v names with
  | nil =>
    cases names with
    | nil => cases hname
    | cons first names =>
      obtain rfl : first = name := Option.some.inj hname
      rw [List.nil_append, Variables.answered, List.zip_cons_cons, List.zip_nil_right]
      rfl
  | cons first lines ih =>
    cases names with
    | nil => cases hname
    | cons _ names => exact ih _ hname

theorem take_questions {name : String} {i : Nat} (hname : vars[i]? = some name) :
    (vars.map question).take (i + 1) = (vars.map question).take i ++ [question name] := by
  obtain ⟨hi, rfl⟩ := List.getElem?_eq_some_iff.mp hname
  rw [List.take_add_one, List.getElem?_map, List.getElem?_eq_getElem hi]
  rfl

theorem Progress.step (h : s.AtPrompt p vars) (hp : Progress s vars answers signals s') (selection : Int) :
    Progress s vars answers (signals ++ (s'.step p selection).signals) (s'.step p selection).state := by
  rcases hp.within.step h selection with
    ⟨-, hstep⟩ | ⟨hnone, name, s'', hname, hstep, hwithin, hasked, hmemory⟩
  · rw [hstep, List.append_nil]
    exact hp
  · have hwait : s''.isAwaiting = true := congrArg Option.isSome hasked
    have hshown := hp.shown
    rw [hnone] at hshown
    rw [hstep]
    refine ⟨hwithin, ?_, hmemory ▸ hp.bound⟩
    rw [hshown, hwait]
    exact (take_questions hname).symm

theorem Progress.answer (h : s.AtPrompt p vars) (hp : Progress s vars answers signals s')
    (hwait : s'.isAwaiting = true) {line : String} (hopen : (answers ++ [line]).length < vars.length) :
    Progress s vars (answers ++ [line]) signals (s'.setInput line) := by
  rcases hp.within.setInput h line with ⟨hnone, -⟩ | ⟨-, name, hname, hmemory, hnone, hnext⟩
  · rw [hnone] at hwait
    cases hwait
  · have hshown := hp.shown
    rw [hwait] at hshown
    have hbound : (s'.setInput line).memory.vars = s.memory.vars.answered vars (answers ++ [line]) := by
      rw [answered_concat s.memory.vars hname line, ← hp.bound, hmemory]
      rfl
    rw [List.length_append] at hopen
    refine ⟨?_, ?_, hbound⟩
    · rw [List.length_append]
      exact hnext hopen
    · rw [hnone, List.length_append]
      exact hshown

theorem Progress.setKey (hp : Progress s vars answers signals s') (key : Int) :
    Progress s vars answers signals (s'.setKey key) :=
  ⟨hp.within.setKey key, hp.shown, hp.bound⟩

/-- Every call takes a Prompt on by one question, by one answer, or not at all. -/
theorem Progress.apply (h : s.AtPrompt p vars) (hp : Progress s vars answers signals s') {call : HostCall}
    (hcall : ∀ name v, call ≠ .assign name v)
    (hopen : (answers ++ (call.answer? s').toList).length < vars.length) :
    Progress s vars (answers ++ (call.answer? s').toList) (signals ++ (call.shown p s').signals)
      (call.apply p s') := by
  cases call with
  | step selection =>
    have hanswer : (HostCall.step selection).answer? s' = none := rfl
    rw [hanswer, Option.toList_none, List.append_nil]
    exact hp.step h selection
  | input line =>
    have hsignals : ((HostCall.input line).shown p s').signals = [] := rfl
    rw [hsignals, List.append_nil]
    simp only [HostCall.answer?, HostCall.apply] at hopen ⊢
    cases hwait : s'.isAwaiting with
    | true =>
      rw [hwait] at hopen
      exact hp.answer h hwait hopen
    | false =>
      rcases hp.within.setInput h line with ⟨-, hsame⟩ | ⟨hsome, -⟩
      · rw [if_neg Bool.false_ne_true, Option.toList_none, List.append_nil, hsame]
        exact hp
      · rw [hwait] at hsome
        cases hsome
  | key code =>
    have hanswer : (HostCall.key code).answer? s' = none := rfl
    have hsignals : ((HostCall.key code).shown p s').signals = [] := rfl
    rw [hanswer, hsignals, Option.toList_none, List.append_nil, List.append_nil]
    exact hp.setKey code
  | assign name v => exact absurd rfl (hcall name v)

variable {t : Nat}

theorem length_answer? (s : State) (call : HostCall) :
    (call.answer? s).toList.length ≤ if s.isAwaiting then 1 else 0 := by
  cases call with
  | input line =>
    simp only [HostCall.answer?]
    cases s.isAwaiting <;> exact Nat.le_refl _
  | _ => exact Nat.zero_le _

theorem length_answersBy_succ (p : Program) (s : State) (calls : Nat → HostCall) (t : Nat) :
    (answersBy p s calls t).length ≤ (answersBy p s calls (t + 1)).length := by
  rw [answersBy, List.length_append]
  exact Nat.le_add_right _ _

/-- At every moment before its last answer a Prompt has come as far as its answers. -/
theorem progress_after (h : s.AtPrompt p vars) (hcalls : ∀ t name v, calls t ≠ .assign name v) (t : Nat)
    (hopen : (answersBy p s calls t).length < vars.length) :
    Progress s vars (answersBy p s calls t) (signalsBy p s calls t) (after p s calls t) := by
  induction t with
  | zero =>
    have hwait : s.isAwaiting = false := congrArg Option.isSome h.awaiting
    refine ⟨h.within (List.length_pos_iff.mp hopen), ?_, ?_⟩
    · change [] = (vars.map question).take (0 + if s.isAwaiting then 1 else 0)
      rw [hwait]
      rfl
    · change s.memory.vars = s.memory.vars.answered vars []
      rw [Variables.answered, List.zip_nil_right]
      rfl
  | succ t ih =>
    have hbefore := ih (Nat.lt_of_le_of_lt (length_answersBy_succ p s calls t) hopen)
    exact hbefore.apply h (hcalls t) hopen

/-- As long as a Prompt has not asked its last question, the last answer has not come. -/
theorem length_answersBy_lt (h : s.AtPrompt p vars) (hvars : vars ≠ [])
    (hcalls : ∀ t name v, calls t ≠ .assign name v) (t : Nat)
    (hpc : ∀ r < t, (after p s calls r).pc ≤ s.pc) : (answersBy p s calls t).length < vars.length := by
  induction t with
  | zero => exact List.length_pos_iff.mpr hvars
  | succ t ih =>
    have hprogress := progress_after h hcalls t (ih fun r hr => hpc r (Nat.lt_succ_of_lt hr))
    have hlt := hprogress.within.lt
    have hstays := hpc t (Nat.lt_succ_self t)
    rw [hprogress.within.pc h] at hstays
    have hanswer := length_answer? (after p s calls t) (calls t)
    have hpending : (if (after p s calls t).isAwaiting then 1 else 0) ≤ 1 := by split <;> omega
    rw [answersBy, List.length_append]
    generalize (if (after p s calls t).isAwaiting then 1 else 0) = pending at hstays hanswer hpending
    split at hstays <;> omega

/-- A Prompt asks for each of its variables once and in their order, and binds the answers in this order,
whenever a host steps, gives input or presses keys. Until the last question is answered, there is one
question for each answer and at most one more. A step asks the next question if none is pending, and does
nothing otherwise. An input is bound to the variable that was asked for last, and to no other, if a question
is pending, and is ignored otherwise. The program goes on behind the Prompt when the last question is asked,
and by then all of them have been shown and nothing else. -/
theorem prompt_asks_in_order (h : s.AtPrompt p vars) (hvars : vars ≠ [])
    (hcalls : ∀ t name v, calls t ≠ .assign name v) :
    (∀ t, (answersBy p s calls t).length < vars.length →
        Interview p s vars (answersBy p s calls t) (signalsBy p s calls t) (after p s calls t)) ∧
      ∀ t, (∀ r < t, (after p s calls r).pc ≤ s.pc) → (answersBy p s calls t).length < vars.length ∧
        (s.pc < (after p s calls t).pc → (after p s calls t).pc = s.pc + 1 ∧
          signalsBy p s calls t = vars.map question) := by
  refine ⟨fun t hopen => (progress_after h hcalls t hopen).interview h, fun t hpc => ?_⟩
  have hopen := length_answersBy_lt h hvars hcalls t hpc
  have hprogress := progress_after h hcalls t hopen
  have hshown := hprogress.shown
  refine ⟨hopen, fun hgone => ?_⟩
  rw [hprogress.within.pc h] at hgone ⊢
  generalize (if (after p s calls t).isAwaiting then 1 else 0) = pending at hgone hshown
  by_cases hall : (answersBy p s calls t).length + pending = vars.length
  · rw [hall, ← List.length_map question, List.take_length] at hshown
    exact ⟨if_pos hall, hshown⟩
  · rw [if_neg hall] at hgone
    exact absurd hgone (Nat.lt_irrefl _)

end HostCall

def poll : Program := ⟨[⟨1, .prompt ["X", "Y", "X"]⟩, ⟨2, .disp [.name 2 "X"]⟩], []⟩

/-- A host that steps and answers out of turn, and presses a key in between. -/
def hasty : Nat → HostCall
  | 0 => .input "9"
  | 1 => .step 0
  | 2 => .step 0
  | 3 => .input "1"
  | 4 => .key 31
  | 5 => .input "8"
  | 6 => .step 0
  | 7 => .input "2"
  | t => .step t

theorem prompt_asks_in_order_poll :
    Program.compile "Prompt X,Y,X\nDisp X" = .ok poll ∧
      (State.initial ⟨fun _ => 0, 0⟩).AtPrompt poll ["X", "Y", "X"] ∧
      (∀ t name v, hasty t ≠ .assign name v) ∧
      (HostCall.after poll (.initial ⟨fun _ => 0, 0⟩) hasty 9).pc = 1 ∧
      HostCall.signalsBy poll (.initial ⟨fun _ => 0, 0⟩) hasty 9 = ["X", "Y", "X"].map question := by
  have hat : (State.initial ⟨fun _ => 0, 0⟩).AtPrompt poll ["X", "Y", "X"] :=
    ⟨⟨1, rfl⟩, rfl, rfl, rfl, rfl⟩
  have hcalls : ∀ t name v, hasty t ≠ .assign name v := by
    intro t name v
    unfold hasty
    split <;> simp
  have hpc : ∀ r < 9, (HostCall.after poll (.initial ⟨fun _ => 0, 0⟩) hasty r).pc ≤ 0 := by decide
  have hgone := ((HostCall.prompt_asks_in_order hat (by decide) hcalls).2 9 hpc).2 (by decide)
  exact ⟨by cbv, hat, hcalls, hgone⟩

end PocketBasic
