/-
  The budget of instructions.

  * `path` are the machines that a run goes through; one that `executes` runs an
    instruction, which is counted unless the machine `isQuiet`; one that `isSpent`
    raises the fault of the budget instead;
  * `Extends`: frames are pushed, and the budget is kept; `step_of_run`,
    `step_of_throw` and `step_of_wait` say so of each kind of step, `extends_step` of
    all but those of `step_of_isSpent`;
  * `credit` is what may still be counted before the next fault; `step_credit` and
    `counted_add_credit`: each fault makes room for another budget, and nothing
    else does;
  * `Watched`: the budget is watched, but for a fault of which nobody is told;
    `unwatched_eq_zero`: then all that is executed counts;
  * `Doomed`: a fault is raised that no frame takes; `Doomed.step` is the step,
    `Doomed.result_ne` the run.
-/
import Mathlib.Data.List.Infix
import Reactor.Lua.Machine

namespace Reactor.Lua

/-- A frame takes the fault of a call. -/
def Frame.isGuard : Frame → Bool
  | .guard .. => true
  | _ => false

/-- A frame raises a fault when it comes to the top. -/
def Frame.raises : Frame → Bool
  | .handling _ | .unwinding _ => true
  | _ => false

/-- The fault of the budget is raised. -/
def Control.isQuiet : Control → Bool
  | .throw .budget _ => true
  | _ => false

@[simp]
theorem Control.isQuiet_ofFault (isNative : Bool) (stack : List Frame) (e : Fault) :
    (ofFault isNative stack e).isQuiet = false := by
  cases e <;> simp only [ofFault, ofNative] <;> repeat' split
  all_goals rfl

namespace Machine

variable {m m' : Machine} {f : LuaFrame} {n : Nat}

/-! ## Paths -/

/-- The machines that a run takes its steps from. -/
def path : Nat → Machine → List Machine
  | 0, _ => []
  | fuel + 1, m => if m.isDone then [] else m :: path fuel m.step

/-- A machine comes to an instruction. -/
def fetches (m : Machine) : Bool :=
  match m.control with
  | .run f => !m.isOverLimit && f.proto.code[f.pc]?.isSome
  | _ => false

/-- The fault of the budget is raised, or a handler is told of it: it is not raised
    again meanwhile. -/
def isQuiet (m : Machine) : Bool := m.control.isQuiet || m.stack.any Frame.isQuiet

/-- A machine comes to an instruction, and has used up its budget. -/
def isSpent (m : Machine) : Bool := m.fetches && decide (m.left ≤ 1) && !m.isQuiet

/-- A machine comes to an instruction, and executes it. -/
def executes (m : Machine) : Bool := m.fetches && !m.isSpent

/-- Some frame would take a fault. -/
def isGuarded (m : Machine) : Bool := m.stack.any Frame.isGuard

/-- Someone would be told of a fault before. -/
def isHandled (m : Machine) : Bool := decide (handlerOf m.stack ≠ .nobody)

/-- The number of instructions executed on a path. -/
def executed (ms : List Machine) : Nat := ms.countP executes

/-- The number of those that count. -/
def counted (ms : List Machine) : Nat := ms.countP fun m => m.executes && !m.isQuiet

/-- The number of those that do not. -/
def unwatched (ms : List Machine) : Nat := ms.countP fun m => m.executes && m.isQuiet

/-- How often the budget is used up on a path. -/
def spent (ms : List Machine) : Nat := ms.countP isSpent

theorem executed_eq (ms : List Machine) : executed ms = counted ms + unwatched ms := by
  unfold executed counted unwatched
  induction ms with
  | nil => rfl
  | cons m ms ih =>
    simp only [List.countP_cons, ih]
    cases m.executes <;> cases m.isQuiet <;> simp <;> omega

/-! ## Pushing frames -/

/-- A machine has pushed frames, and kept its budget, which is watched if it was
    before. -/
structure Extends (m m' : Machine) : Prop where
  left : m'.left = m.left
  budget : m'.budget = m.budget
  stack : m.stack <:+ m'.stack
  quiet : m'.isQuiet = true → m.isQuiet = true

theorem Extends.refl (m : Machine) : Extends m m := ⟨rfl, rfl, List.suffix_refl _, id⟩

/-- The heap does not matter, and neither does what is done next. -/
theorem Extends.of_eq (hleft : m'.left = m.left) (hbudget : m'.budget = m.budget)
    (hstack : m'.stack = m.stack) (hcalm : m'.control.isQuiet = false) : Extends m m' := by
  refine ⟨hleft, hbudget, hstack ▸ List.suffix_refl _, fun hquiet => ?_⟩
  rw [isQuiet, hcalm, hstack, Bool.false_or] at hquiet
  rw [isQuiet, hquiet, Bool.or_true]

/-- Something else is changed first. -/
theorem Extends.adjust {h : Heap} {c : Control} {d s : Nat} (hcalm : c.isQuiet = false)
    (hm : Extends ⟨h, c, m.stack, d, s, m.left, m.budget⟩ m') : Extends m m' := by
  refine ⟨hm.left, hm.budget, hm.stack, fun hquiet => ?_⟩
  have hbelow := hm.quiet hquiet
  rw [isQuiet, hcalm, Bool.false_or] at hbelow
  rw [isQuiet, hbelow, Bool.or_true]

/-- Another frame is pushed first. -/
theorem Extends.push {h : Heap} {c : Control} {fr : Frame} {d s : Nat}
    (hcalm : c.isQuiet = false) (hfr : fr.isQuiet = false ∨ m.isQuiet = true)
    (hm : Extends ⟨h, c, fr :: m.stack, d, s, m.left, m.budget⟩ m') : Extends m m' := by
  refine ⟨hm.left, hm.budget, (List.suffix_cons fr _).trans hm.stack, fun hquiet => ?_⟩
  rcases hfr with hfr | hfr
  · have hpushed := hm.quiet hquiet
    rw [isQuiet, hcalm, List.any_cons, hfr, Bool.false_or, Bool.false_or] at hpushed
    rw [isQuiet, hpushed, Bool.or_true]
  · exact hfr

/-- A frame is pushed, and nothing is called. -/
theorem Extends.of_cons {fr : Frame} (hleft : m'.left = m.left) (hbudget : m'.budget = m.budget)
    (hstack : m'.stack = fr :: m.stack) (hcalm : m'.control.isQuiet = false)
    (hfr : fr.isQuiet = false ∨ m.isQuiet = true) : Extends m m' :=
  .push (h := m.heap) (c := .deliver #[]) (d := m.depth) (s := m.slots) rfl hfr
    (.of_eq hleft hbudget hstack hcalm)

/-- A call above a frame that waits; the heap and what is done next do not matter. -/
theorem extends_callAbove {wait : Frame} {call : Machine → Machine} {h : Heap} {c : Control}
    {d s : Nat} (hwait : wait.isQuiet = false ∨ m.isQuiet = true)
    (hcall : ∀ m, Extends m (call m)) :
    Extends m (callAbove ⟨h, c, m.stack, d, s, m.left, m.budget⟩ wait call) := by
  unfold callAbove
  dsimp only
  split
  · exact .of_cons rfl rfl rfl rfl hwait
  · split
    · exact .of_cons rfl rfl rfl rfl hwait
    · exact .push rfl hwait (hcall _)

/-- What waits for a call of a computation. -/
theorem isQuiet_of_ofOutcome {isNative : Bool} {stack : List Frame} {o : Outcome (Array Value)}
    {g : Value} {args : Array Value} {hint : Option Hint} {h : Heap} {wait : Frame}
    (ho : Next.ofOutcome isNative stack o = .call g args hint h wait) : wait.isQuiet = false := by
  cases o <;> cases ho <;> rfl

theorem isQuiet_of_ofOutcome_control {isNative : Bool} {stack : List Frame}
    {o : Outcome (Array Value)} {c : Control} {h : Heap}
    (ho : Next.ofOutcome isNative stack o = .control c h) : c.isQuiet = false := by
  cases o <;> cases ho
  · rfl
  · exact Control.isQuiet_ofFault ..

theorem extends_resumeWith {call : Machine → Value → Array Value → Option Hint → Machine}
    (hcall : ∀ m g args hint, Extends m (call m g args hint)) (m : Machine) (isNative : Bool)
    (o : Heap → Outcome (Array Value)) : Extends m (resumeWith m isNative o call) := by
  unfold resumeWith
  dsimp only
  split
  · rename_i c h ho
    exact .of_eq rfl rfl rfl (isQuiet_of_ofOutcome_control ho)
  · rename_i g args hint h wait ho
    exact extends_callAbove (.inl (isQuiet_of_ofOutcome ho)) fun m => hcall m ..

theorem extends_callClosure (m : Machine) (c : Closure) (args : Array Value) :
    Extends m (callClosure m c args) := by
  unfold callClosure
  dsimp only
  split
  · exact .of_eq rfl rfl rfl rfl
  · split <;> exact .of_eq rfl rfl rfl rfl

theorem extends_callValue (fuel : Nat) : ∀ (m : Machine) (g : Value) (args : Array Value)
    (hint : Option Hint), Extends m (callValue m fuel g args hint) := by
  induction fuel with
  | zero => exact fun m _ _ _ => .refl m
  | succ fuel ih =>
    intro m g args hint
    rw [callValue]
    split
    · exact .of_eq rfl rfl rfl rfl
    · exact extends_callClosure ..
    · exact extends_resumeWith ih m true _
    · exact .refl m

/-- A machine that starts has all of its budget left. -/
theorem extends_start (h : Heap) (budget : Nat) (t : Task (Array Value)) :
    Extends ⟨h, .deliver #[], [], 0, 0, budget, budget⟩ (start h budget t) :=
  extends_resumeWith (extends_callValue maxDirect) _ true t

theorem extends_callFrom (m : Machine) (f : LuaFrame) (sink : Sink) (used : Nat) (g : Value)
    (args : Array Value) (hint : Option Hint) : Extends m (callFrom m f sink used g args hint) := by
  unfold callFrom
  exact .push rfl (.inl rfl) (extends_callValue ..)

theorem extends_operate (m : Machine) (f : LuaFrame) (sink : Sink) (t : Task (Array Value)) :
    Extends m (operate m f sink t) := by
  unfold operate
  exact .push rfl (.inl rfl) (extends_resumeWith (extends_callValue maxDirect) ..)

theorem extends_closeNewest (m : Machine) (f : LuaFrame) (v : Value) (rest : List (Nat × Value)) :
    Extends m (closeNewest m f v rest) := by
  unfold closeNewest
  exact extends_operate ..

/-- **An instruction** pushes frames at most. -/
theorem extends_execute (m : Machine) (f : LuaFrame) (i : Instr) : Extends m (execute m f i) := by
  have hcall := extends_callFrom m
  have hoperate := extends_operate m
  have hclose := extends_closeNewest m
  cases i <;> simp only [execute] <;> repeat' split
  all_goals first
    | exact .of_eq rfl rfl rfl rfl
    | exact .of_cons rfl rfl rfl rfl (.inl rfl)
    | exact hoperate ..
    | exact hcall ..
    | exact hclose ..

theorem extends_collect (hrun : m.control = .run f) : Extends m m.collect := by
  unfold collect
  dsimp only
  rw [hrun]
  split
  · exact .of_cons rfl rfl rfl rfl (.inl rfl)
  · exact .of_eq rfl rfl rfl rfl

/-! ## Steps -/

theorem fetches_of_run (hrun : m.control = .run f) (hover : m.isOverLimit = false) :
    m.fetches = f.proto.code[f.pc]?.isSome := by
  simp [fetches, hrun, hover]

/-- A machine with what is left of its budget after an instruction, if it executes
    one; without a fault, the budget begins anew at its end. -/
def charged (m : Machine) : Machine :=
  if m.executes then { m with left := if 1 < m.left then m.left - 1 else m.budget } else m

theorem charged_budget (m : Machine) : m.charged.budget = m.budget := by
  unfold charged
  split <;> rfl

theorem charged_control (m : Machine) : m.charged.control = m.control := by
  unfold charged
  split <;> rfl

theorem charged_stack (m : Machine) : m.charged.stack = m.stack := by
  unfold charged
  split <;> rfl

/-- **A function runs on** if its budget is not used up: frames are pushed. -/
theorem step_of_run (hrun : m.control = .run f) (hspent : m.isSpent = false) :
    Extends m.charged m.step := by
  cases hover : m.isOverLimit with
  | true =>
    have hcharged : m.charged = m := if_neg (by simp [executes, fetches, hrun, hover])
    rw [hcharged, step, if_pos hover]
    exact extends_collect hrun
  | false =>
    have hfetches := fetches_of_run hrun hover
    have hquiet : m.isQuiet = m.stack.any Frame.isQuiet := by
      rw [isQuiet, hrun]
      rfl
    rw [step, if_neg (by simp [hover])]
    simp only [hrun, advance]
    split
    · rename_i hnone
      have hcharged : m.charged = m := if_neg (by simp [executes, hfetches, hnone])
      rw [hcharged]
      exact .of_eq rfl rfl rfl rfl
    · rename_i i hi
      have hcharged : m.charged =
          { m with left := if 1 < m.left then m.left - 1 else m.budget } :=
        if_pos (by rw [executes, hspent, hfetches, hi]; rfl)
      rw [hcharged]
      split
      · exact .adjust rfl (extends_execute ..)
      · rename_i hleft
        have hquiet' : m.stack.any Frame.isQuiet = true := by
          simpa [isSpent, hfetches, hi, hquiet, Nat.not_lt.1 hleft] using hspent
        rw [if_pos hquiet']
        exact .adjust rfl (extends_execute ..)

/-- **The budget is used up**: a fault is raised where the instruction stands, and
    there is another budget. -/
theorem step_of_isSpent (hspent : m.isSpent = true) : ∃ f : LuaFrame, m.step =
    { m with control := .throw .budget (.failure (budgetMessage m.budget)),
             stack := .lua f :: m.stack, left := m.budget } := by
  obtain ⟨⟨hfetches, hleft⟩, hquiet⟩ : (m.fetches = true ∧ m.left ≤ 1) ∧ m.isQuiet = false := by
    simpa [isSpent] using hspent
  cases hcontrol : m.control with
  | run f =>
    obtain ⟨hover, hcode⟩ : m.isOverLimit = false ∧ f.proto.code[f.pc]?.isSome := by
      simpa [fetches, hcontrol] using hfetches
    obtain ⟨i, hi⟩ := Option.isSome_iff_exists.1 hcode
    have hstack : m.stack.any Frame.isQuiet = false := (Bool.or_eq_false_iff.1 hquiet).2
    refine ⟨{ f with pc := f.pc + 1 }, ?_⟩
    rw [step, if_neg (by simp [hover])]
    simp only [hcontrol, advance, hi, Nat.not_lt.2 hleft, hstack, if_false]
    rfl
  | _ => simp [fetches, hcontrol] at hfetches

/-- **A handler is told** of a value that is raised, on top of the stack. -/
theorem step_of_throw {o : Origin} {v : Value} (hthrow : m.control = .throw o v) :
    Extends m m.step := by
  rw [step, if_neg (by simp [isOverLimit, hthrow])]
  simp only [hthrow, tell]
  split
  · exact .of_eq rfl rfl rfl rfl
  · refine extends_callAbove ?_ fun m => extends_callValue ..
    -- the handler of the budget is told while the fault is raised
    cases o with
    | budget => exact .inr (by rw [isQuiet, hthrow]; rfl)
    | _ => exact .inl rfl

/-- **A frame gets results or a fault**: it is taken off the stack, and others may
    be pushed. -/
theorem step_of_wait {fr : Frame} {rest : List Frame}
    (hwait : (∃ vs, m.control = .deliver vs) ∨ ∃ e, m.control = .unwind e)
    (hstack : m.stack = fr :: rest) : Extends { m with stack := rest } m.step := by
  have hresume := extends_resumeWith (extends_callValue maxDirect)
  obtain ⟨vs, hcontrol⟩ | ⟨e, hcontrol⟩ := hwait
  · rw [step, if_neg (by simp [isOverLimit, hcontrol])]
    simp only [hcontrol, hstack]
    cases fr with
    | lua f =>
      dsimp only
      split <;> exact .of_eq rfl rfl rfl rfl
    | task isNative resume =>
      dsimp only
      exact .adjust rfl (hresume ..)
    | guard isNative handler resume =>
      dsimp only
      exact .adjust rfl (hresume ..)
    | handling o => exact .of_eq rfl rfl rfl rfl
    | unwinding e => exact .of_eq rfl rfl rfl rfl
  · rw [step, if_neg (by simp [isOverLimit, hcontrol])]
    simp only [hcontrol, hstack]
    cases fr with
    | lua f =>
      dsimp only
      split
      · exact .of_eq rfl rfl rfl rfl
      · -- what waits to be closed is closed first, above the function it belongs to
        exact .push (h := m.heap) (c := .unwind e) (d := 0) (s := 0) rfl (.inl rfl)
          (.push rfl (.inl rfl) (extends_callValue ..))
    | task isNative resume => exact .of_eq rfl rfl rfl rfl
    | guard isNative handler resume =>
      dsimp only
      exact .adjust rfl (hresume ..)
    | handling o => exact .of_eq rfl rfl rfl rfl
    | unwinding e => exact .of_eq rfl rfl rfl rfl

/-- **Every other step** pushes frames onto the stack, or onto what is left of it when
    the frame on top is taken off. -/
theorem extends_step (hgoes : m.isDone = false) (hspent : m.isSpent = false) :
    ∃ stack, stack <:+ m.stack ∧ Extends { m.charged with stack } m.step := by
  cases hcontrol : m.control with
  | run f =>
    exact ⟨m.charged.stack, charged_stack m ▸ List.suffix_refl _, step_of_run hcontrol hspent⟩
  | throw o v =>
    have hcharged : m.charged = m := if_neg (by simp [executes, fetches, hcontrol])
    rw [hcharged]
    exact ⟨m.stack, List.suffix_refl _, step_of_throw hcontrol⟩
  | _ =>
    have hcharged : m.charged = m := if_neg (by simp [executes, fetches, hcontrol])
    obtain ⟨fr, rest, hstack⟩ : ∃ fr rest, m.stack = fr :: rest := by
      refine List.exists_cons_of_ne_nil fun hnil => ?_
      simp [isDone, hcontrol, hnil] at hgoes
    rw [hcharged]
    exact ⟨rest, hstack ▸ List.suffix_cons fr rest, step_of_wait (by simp [hcontrol]) hstack⟩

/-! ## The budget along a path -/

/-- What a step leaves of the budget. -/
theorem step_left (hgoes : m.isDone = false) : m.step.budget = m.budget ∧
    m.step.left = if m.isSpent then m.budget else m.charged.left := by
  cases hspent : m.isSpent with
  | true =>
    obtain ⟨f, hstep⟩ := step_of_isSpent hspent
    rw [hstep]
    exact ⟨rfl, rfl⟩
  | false =>
    obtain ⟨stack, -, hextends⟩ := extends_step hgoes hspent
    exact ⟨hextends.budget.trans (charged_budget m), hextends.left⟩

/-- The budget is watched after a step if it was before, and is not used up. -/
theorem isQuiet_of_step (hgoes : m.isDone = false) (hspent : m.isSpent = false)
    (hquiet : m.step.isQuiet = true) : m.isQuiet = true := by
  obtain ⟨stack, hsuffix, hextends⟩ := extends_step hgoes hspent
  have hbelow := hextends.quiet hquiet
  rw [isQuiet, charged_control, Bool.or_eq_true] at hbelow
  rw [isQuiet, Bool.or_eq_true]
  refine hbelow.imp id fun hany => ?_
  obtain ⟨fr, hfr, hquiet⟩ := List.any_eq_true.1 hany
  exact List.any_eq_true.2 ⟨fr, hsuffix.subset hfr, hquiet⟩

/-- What may still be counted before the next fault: what is left of the budget, or
    a whole one if it is not watched now. -/
def credit (m : Machine) : Nat := if m.isQuiet then m.budget else m.left

/-- Something is left of the budget. -/
structure Budgeted (m : Machine) : Prop where
  pos : 1 ≤ m.left
  le : m.left ≤ m.budget

theorem Budgeted.credit_pos (h : m.Budgeted) : 1 ≤ m.credit := by
  have hpos := h.pos
  have hle := h.le
  unfold credit
  split <;> omega

theorem Budgeted.credit_le (h : m.Budgeted) : m.credit ≤ m.budget := by
  unfold credit
  split
  · exact Nat.le_refl _
  · exact h.le

theorem Budgeted.left_le_credit (h : m.Budgeted) : m.left ≤ m.credit := by
  unfold credit
  split
  · exact h.le
  · exact Nat.le_refl _

theorem Budgeted.charged (h : m.Budgeted) : m.charged.Budgeted := by
  have hpos := h.pos
  have hle := h.le
  unfold Machine.charged
  split
  · constructor <;> dsimp only <;> split <;> omega
  · exact h

theorem Budgeted.step (h : m.Budgeted) (hgoes : m.isDone = false) : m.step.Budgeted := by
  obtain ⟨hb, hl⟩ := step_left hgoes
  split at hl
  · exact ⟨hl ▸ Nat.le_trans h.pos h.le, Nat.le_of_eq (hl.trans hb.symm)⟩
  · have hle := h.charged.le
    rw [charged_budget] at hle
    exact ⟨hl ▸ h.charged.pos, by rwa [hl, hb]⟩

/-- **What a step counts is taken off the credit**; the fault of the budget gives
    another. -/
theorem step_credit (h : m.Budgeted) (hgoes : m.isDone = false) :
    (if m.executes && !m.isQuiet then 1 else 0) + m.step.credit ≤
      m.credit + if m.isSpent then m.budget - 1 else 0 := by
  have hstep := h.step hgoes
  obtain ⟨hb, hl⟩ := step_left hgoes
  have hcredit := hstep.credit_le
  have hpos := h.credit_pos
  cases hspent : m.isSpent with
  | true =>
    have hexecutes : m.executes = false := by simp [executes, hspent]
    rw [hb] at hcredit
    simp only [hexecutes, Bool.false_and, Bool.false_eq_true, if_false, if_true]
    omega
  | false =>
    cases hquiet : m.isQuiet with
    | true =>
      rw [hb] at hcredit
      simpa [credit, hquiet] using hcredit
    | false =>
      have hquiet' : m.step.isQuiet = false := by
        rw [← Bool.not_eq_true]
        intro hstep
        exact absurd ((isQuiet_of_step hgoes hspent hstep).symm.trans hquiet) (by decide)
      rw [hspent, if_neg Bool.false_ne_true] at hl
      rw [credit, hquiet', credit, hquiet, hl]
      cases hexecutes : m.executes with
      | true =>
        have hfetches : m.fetches = true := by
          rw [executes, hspent] at hexecutes
          simpa using hexecutes
        have hlt : 1 < m.left := by simpa [isSpent, hfetches, hquiet] using hspent
        simp only [charged, hexecutes, hlt, Bool.not_false, Bool.and_self, if_true,
          Bool.false_eq_true, if_false]
        omega
      | false => simp [charged, hexecutes]

/-- **Each fault makes room for another budget**, and nothing else does: what is
    counted comes out of the credit at the start, and of the budgets begun. -/
theorem counted_add_credit (h : m.Budgeted) :
    counted (m.path n) + (m.run n).credit ≤ m.credit + spent (m.path n) * (m.budget - 1) ∧
      (m.run n).budget = m.budget ∧ (m.run n).Budgeted := by
  induction n generalizing m with
  | zero => exact ⟨by simp [path, run, counted, spent], rfl, h⟩
  | succ n ih =>
    rw [path, run]
    cases hdone : m.isDone with
    | true => exact ⟨by simp [counted, spent], rfl, h⟩
    | false =>
      obtain ⟨hb, -⟩ := step_left hdone
      obtain ⟨hle, hb', hrun⟩ := ih (h.step hdone)
      have hstep := step_credit h hdone
      refine ⟨?_, hb'.trans hb, hrun⟩
      have hcounted (ms : List Machine) : counted (m :: ms) =
          counted ms + if m.executes && !m.isQuiet then 1 else 0 := List.countP_cons
      have hspent (ms : List Machine) : spent (m :: ms) = spent ms + if m.isSpent then 1 else 0 :=
        List.countP_cons
      have hmul : (if m.isSpent then 1 else 0) * (m.budget - 1) =
          if m.isSpent then m.budget - 1 else 0 := by
        split
        · exact Nat.one_mul _
        · exact Nat.zero_mul _
      rw [hb] at hle
      rw [if_neg Bool.false_ne_true, if_neg Bool.false_ne_true, hcounted, hspent, Nat.add_mul, hmul]
      omega

/-! ## What does not count -/

/-- The budget is watched, unless its fault is raised and nobody is told of it. -/
inductive Watched (m : Machine) : Prop
  | calm (hcalm : m.isQuiet = false)
  | raised {v : Value} (hcontrol : m.control = .throw .budget v)
    (hstack : m.stack.any Frame.isQuiet = false) (hnobody : m.isHandled = false)

theorem Watched.of_stack (hcontrol : m.control.isQuiet = false)
    (hstack : m.stack.any Frame.isQuiet = false) : m.Watched :=
  .calm (by rw [isQuiet, hcontrol, hstack]; rfl)

/-- A machine that is watched executes nothing that does not count. -/
theorem Watched.counts (h : m.Watched) : (m.executes && m.isQuiet) = false := by
  cases h with
  | calm hcalm => rw [hcalm, Bool.and_false]
  | raised hcontrol _ _ => simp [executes, fetches, hcontrol]

theorem Watched.step (h : m.Watched) (hgoes : m.isDone = false)
    (hnobody : m.isSpent = true → m.isHandled = false) : m.step.Watched := by
  cases h with
  | calm hcalm =>
    cases hspent : m.isSpent with
    | true =>
      obtain ⟨f, hstep⟩ := step_of_isSpent hspent
      rw [hstep]
      exact .raised rfl (Bool.or_eq_false_iff.1 hcalm).2 (hnobody hspent)
    | false =>
      refine .calm (Bool.eq_false_iff.2 fun hquiet => ?_)
      rw [isQuiet_of_step hgoes hspent hquiet] at hcalm
      cases hcalm
  | @raised v hcontrol hstack hnobody =>
    have hhandler : handlerOf m.stack = .nobody := by simpa [isHandled] using hnobody
    have hstep : m.step = { m with control := .unwind (.value v) } := by
      rw [Machine.step, if_neg (by simp [isOverLimit, hcontrol])]
      simp only [hcontrol, tell, hhandler, Handler.function?]
    rw [hstep]
    exact .of_stack rfl hstack

/-- **All that is executed counts**, if nobody is told of a fault of the budget. -/
theorem unwatched_eq_zero (h : m.Watched)
    (hnobody : ∀ m' ∈ m.path n, m'.isSpent = true → m'.isHandled = false) :
    unwatched (m.path n) = 0 ∧ (m.run n).Watched := by
  induction n generalizing m with
  | zero => exact ⟨rfl, h⟩
  | succ n ih =>
    rw [path] at hnobody ⊢
    rw [run]
    cases hdone : m.isDone with
    | true => exact ⟨rfl, h⟩
    | false =>
      rw [hdone] at hnobody
      obtain ⟨hrest, hrun⟩ := ih (h.step hdone (hnobody m List.mem_cons_self)) fun m' hm' =>
        hnobody m' (List.mem_cons_of_mem m hm')
      refine ⟨?_, hrun⟩
      rw [if_neg Bool.false_ne_true, unwatched, List.countP_cons_of_neg (by simp [h.counts])]
      exact hrest

/-! ## Faults that nothing takes -/

/-- A fault is raised that no frame takes, at once or when something that is called
    has ended. -/
inductive Doomed (m : Machine) : Prop
  | thrown {o : Origin} {v : Value} (hcontrol : m.control = .throw o v)
    (hfree : m.stack.any Frame.isGuard = false)
  | raised {e : Fault} (hcontrol : m.control = .unwind e)
    (hfree : m.stack.any Frame.isGuard = false)
  | waiting {fr : Frame} {rest : List Frame} (hraises : fr.raises = true)
    (hfree : rest.any Frame.isGuard = false) (hstack : fr :: rest <:+ m.stack)

/-- The fault of the budget, with no frame to take it. -/
theorem doomed_of_isSpent (hspent : m.isSpent = true) (hfree : m.isGuarded = false) :
    m.step.Doomed := by
  obtain ⟨f, hstep⟩ := step_of_isSpent hspent
  rw [hstep]
  refine .thrown rfl ?_
  rw [List.any_cons]
  exact hfree

/-- A step of a function pushes frames only, whatever it does to the budget. -/
theorem suffix_step_of_run (hrun : m.control = .run f) : m.stack <:+ m.step.stack := by
  cases hspent : m.isSpent with
  | true =>
    obtain ⟨f', hstep⟩ := step_of_isSpent hspent
    rw [hstep]
    exact List.suffix_cons _ _
  | false => exact charged_stack m ▸ (step_of_run hrun hspent).stack

/-- Above a frame that raises a fault, anything may be called. -/
theorem Doomed.of_extends {fr : Frame} {rest : List Frame} (hm : Extends m m')
    (hstack : m.stack = fr :: rest) (hraises : fr.raises = true)
    (hfree : rest.any Frame.isGuard = false) : m'.Doomed :=
  .waiting hraises hfree (hstack ▸ hm.stack)

/-- A handler is told of a fault that no frame takes, or it goes on at once. -/
theorem doomed_step_of_thrown {o : Origin} {v : Value} (hcontrol : m.control = .throw o v)
    (hfree : m.stack.any Frame.isGuard = false) : m.step.Doomed := by
  rw [step, if_neg (by simp [isOverLimit, hcontrol])]
  simp only [hcontrol, tell]
  split
  · exact .raised rfl hfree
  · unfold callAbove
    dsimp only
    split
    · exact .of_extends (.refl _) rfl rfl hfree
    · split
      · exact .of_extends (.refl _) rfl rfl hfree
      · exact .of_extends (extends_callValue ..) rfl rfl hfree

/-- A fault that no frame takes is raised in the next frame, or in a function that
    closes something first. -/
theorem doomed_step_of_raised {e : Fault} (hcontrol : m.control = .unwind e)
    (hfree : m.stack.any Frame.isGuard = false) : m.step.Doomed := by
  rw [step, if_neg (by simp [isOverLimit, hcontrol])]
  simp only [hcontrol]
  cases hstack : m.stack with
  | nil => exact .raised rfl rfl
  | cons fr rest =>
    rw [hstack, List.any_cons, Bool.or_eq_false_iff] at hfree
    obtain ⟨hfr, hrest⟩ := hfree
    cases fr with
    | lua f =>
      dsimp only
      split
      · exact .raised rfl hrest
      · exact .of_extends (extends_callValue ..) rfl rfl (by rw [List.any_cons, hrest]; rfl)
    | guard isNative handler resume => cases hfr
    | _ => exact .raised rfl hrest

/-- What raises a fault when it comes to the top. -/
theorem doomed_step_of_waiting {fr : Frame} {rest : List Frame} (hraises : fr.raises = true)
    (hwait : (∃ vs, m.control = .deliver vs) ∨ ∃ e, m.control = .unwind e)
    (hstack : m.stack = fr :: rest) (hfree : rest.any Frame.isGuard = false) :
    m.step.Doomed := by
  obtain ⟨vs, hcontrol⟩ | ⟨e, hcontrol⟩ := hwait
  · rw [step, if_neg (by simp [isOverLimit, hcontrol])]
    simp only [hcontrol, hstack]
    cases fr with
    | handling o => exact .raised rfl hfree
    | unwinding e => exact .raised rfl hfree
    | _ => cases hraises
  · rw [step, if_neg (by simp [isOverLimit, hcontrol])]
    simp only [hcontrol, hstack]
    cases fr with
    | handling o => exact .raised rfl hfree
    | unwinding e => exact .raised rfl hfree
    | _ => cases hraises

/-- **What is doomed stays so.** -/
theorem Doomed.step (h : m.Doomed) : m.step.Doomed := by
  cases h with
  | thrown hcontrol hfree => exact doomed_step_of_thrown hcontrol hfree
  | raised hcontrol hfree => exact doomed_step_of_raised hcontrol hfree
  | @waiting fr rest hraises hfree hsuffix =>
    have hpops (hwait : (∃ vs, m.control = .deliver vs) ∨ ∃ e, m.control = .unwind e) :
        m.step.Doomed := by
      cases hstack : m.stack with
      | nil =>
        rw [hstack] at hsuffix
        cases List.suffix_nil.1 hsuffix
      | cons top below =>
        rw [hstack] at hsuffix
        rcases List.suffix_cons_iff.1 hsuffix with heq | hbelow
        · cases heq
          exact doomed_step_of_waiting hraises hwait hstack hfree
        · exact .waiting hraises hfree (hbelow.trans (step_of_wait hwait hstack).stack)
    cases hcontrol : m.control with
    | run f => exact .waiting hraises hfree (hsuffix.trans (suffix_step_of_run hcontrol))
    | throw o v => exact .waiting hraises hfree (hsuffix.trans (step_of_throw hcontrol).stack)
    | deliver vs => exact hpops (.inl ⟨vs, hcontrol⟩)
    | unwind e => exact hpops (.inr ⟨e, hcontrol⟩)

theorem Doomed.run (h : m.Doomed) (n : Nat) : (m.run n).Doomed := by
  induction n generalizing m with
  | zero => exact h
  | succ n ih =>
    rw [Machine.run]
    split
    · exact h
    · exact ih h.step

/-- A machine that is doomed has no results. -/
theorem Doomed.result_ne (h : m.Doomed) (vs : Array Value) : m.result? ≠ some (.ok vs) := by
  intro hresult
  unfold result? at hresult
  split at hresult
  · rename_i hdone
    cases h with
    | thrown hcontrol _ | raised hcontrol _ =>
      rw [hcontrol] at hresult
      cases hresult
    | waiting _ _ hsuffix =>
      have hnil : m.stack = [] := by
        cases hcontrol : m.control with
        | run f => simp [isDone, hcontrol] at hdone
        | throw o v => simp [isDone, hcontrol] at hdone
        | _ => simpa [isDone, hcontrol] using hdone
      rw [hnil] at hsuffix
      cases List.suffix_nil.1 hsuffix
  · cases hresult

/-- **A budget that is used up where nothing takes the fault** ends a run without
    results. -/
theorem result_ne_of_isSpent (hmem : m' ∈ m.path n) (hspent : m'.isSpent = true)
    (hfree : m'.isGuarded = false) (vs : Array Value) : (m.run n).result? ≠ some (.ok vs) := by
  induction n generalizing m with
  | zero => cases hmem
  | succ n ih =>
    rw [path] at hmem
    rw [Machine.run]
    split at hmem
    · cases hmem
    · rename_i hgoes
      rw [if_neg hgoes]
      rcases List.mem_cons.1 hmem with rfl | hmem
      · exact ((doomed_of_isSpent hspent hfree).run n).result_ne vs
      · exact ih hmem

end Machine

end Reactor.Lua
