import PocketBasic.Machine.Step

/-!
# Playing a program to its end

`play` steps the machine until the program halts and answers every wait for input with the next line.
`Leads` says that playing from one state comes to another one and shows given signals on the way; it
composes along a run. `Code` says which statements stand at a position of the program.
-/

namespace PocketBasic

/-- How a program ended: its fault, if any, the state, the lines not used and all that was shown. -/
structure Ending where
  fault : Option Fault
  state : State
  lines : List String
  shown : List Signal

def Ending.after (shown : List Signal) (e : Ending) : Ending := { e with shown := shown ++ e.shown }

/-- Takes up to `n` steps. There is no ending if the program does not halt by then or waits for a line
when none is left. -/
def play (p : Program) (selection : Int) : Nat → State → List String → Option Ending
  | 0, _, _ => none
  | n + 1, s, lines =>
    let o := s.step p selection
    match o.status with
    | .halted fault => some ⟨fault, o.state, lines, o.signals⟩
    | .awaiting => match lines with
      | [] => none
      | line :: rest => (play p selection n (o.state.setInput line) rest).map (.after o.signals)
    | _ => (play p selection n o.state lines).map (.after o.signals)

/-- Playing from `s` shows the signals and goes on as playing from `s'` does. -/
def Leads (p : Program) (selection : Int) (s : State) (lines : List String) (shown : List Signal)
    (s' : State) (lines' : List String) : Prop :=
  ∃ n, ∀ k, play p selection (n + k) s lines =
    (play p selection k s' lines').map (.after shown)

section Leads

variable {p : Program} {selection : Int} {s s₁ s₂ : State} {lines lines₁ lines₂ : List String}
  {shown more : List Signal}

theorem Leads.refl (p : Program) (selection : Int) (s : State) (lines : List String) :
    Leads p selection s lines [] s lines := by
  refine ⟨0, fun k => ?_⟩
  rw [Nat.zero_add]
  exact Option.map_id'.symm

theorem Leads.trans (h : Leads p selection s lines shown s₁ lines₁)
    (h' : Leads p selection s₁ lines₁ more s₂ lines₂) :
    Leads p selection s lines (shown ++ more) s₂ lines₂ := by
  obtain ⟨n, hn⟩ := h
  obtain ⟨n', hn'⟩ := h'
  refine ⟨n + n', fun k => ?_⟩
  rw [Nat.add_assoc, hn, hn', Option.map_map]
  congr 1
  funext e
  simp only [Function.comp_apply, Ending.after, List.append_assoc]

theorem Leads.running (h : s.step p selection = ⟨s₁, .running, shown⟩) :
    Leads p selection s lines shown s₁ lines := by
  refine ⟨1, fun k => ?_⟩
  rw [Nat.add_comm]
  simp only [play, h]

theorem Leads.paused (h : s.step p selection = ⟨s₁, .paused, shown⟩) :
    Leads p selection s lines shown s₁ lines := by
  refine ⟨1, fun k => ?_⟩
  rw [Nat.add_comm]
  simp only [play, h]

theorem Leads.answered {line : String} (h : s.step p selection = ⟨s₁, .awaiting, shown⟩)
    (hs : s₁.setInput line = s₂) : Leads p selection s (line :: lines) shown s₂ lines := by
  refine ⟨1, fun k => ?_⟩
  rw [Nat.add_comm]
  simp only [play, h, hs]

theorem Leads.of_step_eq (hs : s.step p selection = s₁.step p selection)
    (h : Leads p selection s₁ lines shown s₂ lines₂) :
    Leads p selection s lines shown s₂ lines₂ := by
  have hplay (n : Nat) : play p selection n s lines = play p selection n s₁ lines := by
    cases n with
    | zero => rfl
    | succ n => simp only [play, hs]
  obtain ⟨n, hn⟩ := h
  exact ⟨n, fun k => (hplay (n + k)).trans (hn k)⟩

/-- A run that comes to a state in which the program halts is played to its end. -/
theorem Leads.ending {fault : Option Fault} (h : Leads p selection s lines shown s₁ lines₁)
    (hs : s₁.step p selection = ⟨s₁, .halted fault, []⟩) :
    ∃ n, play p selection n s lines = some ⟨fault, s₁, lines₁, shown⟩ := by
  obtain ⟨n, hn⟩ := h
  refine ⟨n + 1, ?_⟩
  rw [hn]
  simp only [play, hs, Option.map_some, Ending.after, List.append_nil]

end Leads

/-- The commands `cs` stand in the program from position `a` on. -/
def Code (p : Program) (a : Nat) (cs : List Command) : Prop :=
  ∃ before behind, p.statements.map (·.command) = before ++ cs ++ behind ∧ before.length = a

section Code

variable {p : Program} {a : Nat} {c : Command} {cs ds : List Command}

theorem Code.left (h : Code p a (cs ++ ds)) : Code p a cs := by
  obtain ⟨before, behind, hp, ha⟩ := h
  exact ⟨before, ds ++ behind, by rw [hp]; simp only [List.append_assoc], ha⟩

theorem Code.right (h : Code p a (cs ++ ds)) : Code p (a + cs.length) ds := by
  obtain ⟨before, behind, hp, ha⟩ := h
  refine ⟨before ++ cs, behind, by rw [hp]; simp only [List.append_assoc], ?_⟩
  rw [List.length_append, ha]

theorem Code.tail (h : Code p a (c :: cs)) : Code p (a + 1) cs := by
  have hc : Code p a ([c] ++ cs) := h
  exact hc.right

theorem Code.statement (h : Code p a (c :: cs)) :
    ∃ line, p.statements[a]? = some ⟨line, c⟩ := by
  obtain ⟨before, behind, hp, ha⟩ := h
  have hc : (p.statements.map (·.command))[a]? = some c := by
    rw [hp, List.append_assoc, List.getElem?_append_right (by omega), ha, Nat.sub_self]
    rfl
  rw [List.getElem?_map] at hc
  obtain ⟨st, hst, rfl⟩ := Option.map_eq_some_iff.mp hc
  exact ⟨st.line, hst⟩

theorem Code.bracket {x y : Command} (h : Code p a ([x] ++ cs ++ [y])) :
    ∃ line line', p.statements[a]? = some ⟨line, x⟩ ∧ Code p (a + 1) cs ∧
      p.statements[a + 1 + cs.length]? = some ⟨line', y⟩ := by
  obtain ⟨line, hx⟩ := h.left.statement
  obtain ⟨line', hy⟩ := h.right.statement
  rw [List.length_append, ← Nat.add_assoc] at hy
  exact ⟨line, line', hx, h.left.right, hy⟩

theorem Code.brackets {x y z : Command} (h : Code p a ([x] ++ cs ++ [y] ++ ds ++ [z])) :
    ∃ line line' line'', p.statements[a]? = some ⟨line, x⟩ ∧ Code p (a + 1) cs ∧
      p.statements[a + 1 + cs.length]? = some ⟨line', y⟩ ∧
      Code p (a + 1 + cs.length + 1) ds ∧
      p.statements[a + 1 + cs.length + 1 + ds.length]? = some ⟨line'', z⟩ := by
  obtain ⟨line, line', hx, hcs, hy⟩ := h.left.left.bracket
  have hds := h.left.right
  obtain ⟨line'', hz⟩ := h.right.statement
  simp only [List.length_append, ← Nat.add_assoc] at hds hz
  exact ⟨line, line', line'', hx, hcs, hy, hds, hz⟩

end Code

end PocketBasic
