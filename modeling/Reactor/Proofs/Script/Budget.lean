/-
  The budget of a script.

  * `counted_readings` and `unwatched_readings`: machines that go on from each other
    share one budget;
  * `counted_course_lt`: what an evaluation executes is counted to less than a budget
    for each time that one is used up, and less than one more;
  * `decides_within_budget`: a decision comes within one budget, unless a
    protected call takes the fault of a budget that is used up;
  * `decides_beyond_budget`: it may come after it then.
-/
import Reactor.Proofs.Script.Course

namespace Reactor.Script

open Lua Machine

variable {limits : Limits} {event : Payload} {prior : Option Payload} {source : String}
  {m m' : Machine} {name : String}

theorem counted_append (ms ms' : List Machine) : counted (ms ++ ms') = counted ms + counted ms' :=
  List.countP_append

theorem unwatched_append (ms ms' : List Machine) :
    unwatched (ms ++ ms') = unwatched ms + unwatched ms' := List.countP_append

theorem spent_append (ms ms' : List Machine) : spent (ms ++ ms') = spent ms + spent ms' :=
  List.countP_append

/-! ## Machines that start -/

/-- A machine that starts is watched. -/
theorem isQuiet_start (h : Heap) (budget : Nat) (t : Lua.Task (Array Value)) :
    (Machine.start h budget t).isQuiet = false :=
  Bool.eq_false_iff.2 fun hquiet => Bool.false_ne_true ((extends_start h budget t).quiet hquiet)

theorem isQuiet_reading (m : Machine) (name : String) : (reading m name).isQuiet = false :=
  isQuiet_start m.heap m.budget (readTask m name)

theorem budgeted_reading (h : m.Budgeted) (name : String) : (reading m name).Budgeted :=
  ⟨h.pos, (reading_budget m name).symm ▸ h.le⟩

theorem isQuiet_of_begun (h : begun limits event prior source = some m) : m.isQuiet = false := by
  obtain ⟨-, program, -, rfl⟩ := begun_eq_some.1 h
  exact isQuiet_start ..

theorem budgeted_of_begun (h : begun limits event prior source = some m) : m.Budgeted := by
  obtain ⟨hleft, hbudget⟩ := budget_of_begun h
  have hn : 1 ≤ limits.effective.instructions := Nat.le_max_left ..
  exact ⟨hleft ▸ hn, Nat.le_of_eq (hleft.trans hbudget.symm)⟩

/-! ## The budget along the course -/

/-- **Machines that go on from each other share one budget.** -/
theorem counted_readings (names : List String) : ∀ {m : Machine}, m.Budgeted →
    counted ((readings m names).flatMap fun r => r.path horizon) + 1 ≤
      m.left + spent ((readings m names).flatMap fun r => r.path horizon) * (m.budget - 1) := by
  induction names with
  | nil => exact fun h => by simpa [readings, counted, spent] using h.pos
  | cons name names ih =>
    intro m h
    obtain ⟨hpath, hb, hrun⟩ := counted_add_credit (n := horizon) (budgeted_reading h name)
    have hcredit : (reading m name).credit = m.left := if_neg (by simp [isQuiet_reading])
    rw [hcredit, reading_budget] at hpath
    rw [reading_budget] at hb
    have hleft := hrun.left_le_credit
    have hrest := ih hrun
    rw [hb] at hrest
    rw [readings, List.flatMap_cons, counted_append, spent_append, Nat.add_mul]
    omega

/-- Machines that go on from each other execute nothing that does not count, if
    nobody is told of a fault of the budget. -/
theorem unwatched_readings (names : List String) : ∀ {m : Machine},
    (∀ m' ∈ (readings m names).flatMap fun r => r.path horizon,
      m'.isSpent = true → m'.isHandled = false) →
    unwatched ((readings m names).flatMap fun r => r.path horizon) = 0 := by
  induction names with
  | nil => exact fun _ => rfl
  | cons name names ih =>
    intro m hnobody
    rw [readings, List.flatMap_cons] at hnobody ⊢
    rw [List.forall_mem_append] at hnobody
    rw [unwatched_append, ih hnobody.2,
      (unwatched_eq_zero (.calm (isQuiet_reading m name)) hnobody.1).1]

/-- **Each budget that is used up makes room for one more**, and nothing else does. -/
theorem counted_course_lt (limits : Limits) (event : Payload) (prior : Option Payload)
    (source : String) :
    let ms := course limits event prior source
    let n := limits.effective.instructions
    counted ms < n + spent ms * (n - 1) := by
  intro ms n
  have hn : 1 ≤ limits.effective.instructions := Nat.le_max_left ..
  cases hbegun : begun limits event prior source with
  | none =>
    rw [show ms = [] from course_of_begun_eq_none hbegun]
    exact Nat.lt_of_lt_of_le hn (Nat.le_add_right ..)
  | some m =>
    obtain ⟨hleft, hbudget⟩ := budget_of_begun hbegun
    obtain ⟨hpath, hb, hrun⟩ := counted_add_credit (n := horizon) (budgeted_of_begun hbegun)
    have hcredit : m.credit = limits.effective.instructions :=
      (if_neg (by simp [isQuiet_of_begun hbegun])).trans hleft
    rw [hcredit, hbudget] at hpath
    rw [hbudget] at hb
    have hms : ms = m.path horizon ++ readingsPath (m.run horizon) := course_of_begun hbegun
    show counted ms < limits.effective.instructions +
      spent ms * (limits.effective.instructions - 1)
    rw [hms, counted_append, spent_append, Nat.add_mul]
    unfold readingsPath
    split
    · have hrest := counted_readings (namesRead (m.run horizon)) hrun
      have hleft := hrun.left_le_credit
      rw [hb] at hrest
      omega
    · have hpos := hrun.credit_pos
      simp only [counted, spent, List.countP_nil, Nat.zero_mul] at hpath ⊢
      omega

/-- An evaluation executes nothing that does not count, if nobody is told of a fault
    of the budget. -/
theorem unwatched_course_eq_zero
    (hnobody : ∀ m ∈ course limits event prior source, m.isSpent = true → m.isHandled = false) :
    unwatched (course limits event prior source) = 0 := by
  cases hbegun : begun limits event prior source with
  | none =>
    rw [course_of_begun_eq_none hbegun]
    rfl
  | some m =>
    rw [course_of_begun hbegun, List.forall_mem_append] at hnobody
    have hmain := unwatched_eq_zero (.calm (isQuiet_of_begun hbegun)) hnobody.1
    rw [course_of_begun hbegun, unwatched_append, hmain.1, Nat.zero_add]
    unfold readingsPath at hnobody ⊢
    split
    · rename_i vs hvs
      rw [hvs] at hnobody
      exact unwatched_readings _ hnobody.2
    · rfl

/-- A machine whose budget is used up where nothing takes the fault fails. -/
theorem outcome_of_isSpent (hmem : m' ∈ m.path horizon) (hspent : m'.isSpent = true)
    (hfree : m'.isGuarded = false) : ∃ e, outcome (m.run horizon) = .error e := by
  have hresult := result_ne_of_isSpent hmem hspent hfree
  generalize m.run horizon = last at hresult
  rw [outcome]
  cases hlast : last.result? with
  | none => exact ⟨_, rfl⟩
  | some r =>
    cases r with
    | error e => exact ⟨e, rfl⟩
    | ok vs => exact absurd hlast (hresult vs)

/-- The budget is used up in the main function. -/
theorem evaluate_of_mainCourse (hmem : m ∈ mainCourse limits event prior source)
    (hspent : m.isSpent = true) (hfree : m.isGuarded = false) :
    ∃ t, evaluate limits event prior source = .error (.runtime t) := by
  cases hbegun : begun limits event prior source with
  | none =>
    rw [mainCourse, hbegun, Option.elim_none] at hmem
    cases hmem
  | some start =>
    rw [mainCourse_of_begun hbegun] at hmem
    obtain ⟨e, he⟩ := outcome_of_isSpent hmem hspent hfree
    rw [evaluate_of_begun hbegun, decided]
    simp only [he]
    exact ⟨_, rfl⟩

/-- The budget is used up by what reads the globals. -/
theorem evaluate_of_readingCourse (hmem : m ∈ readingCourse limits event prior source)
    (hspent : m.isSpent = true) (hfree : m.isGuarded = false) :
    ∃ t, evaluate limits event prior source = .error (.contract t) := by
  cases hbegun : begun limits event prior source with
  | none =>
    rw [readingCourse, hbegun, Option.elim_none] at hmem
    cases hmem
  | some start =>
    rw [readingCourse_of_begun hbegun] at hmem
    rw [evaluate_of_begun hbegun, decided]
    generalize start.run horizon = last at hmem
    unfold readingsPath at hmem
    split at hmem
    · rename_i vs hvs
      obtain ⟨r, hr, hmem⟩ := List.mem_flatMap.1 hmem
      obtain ⟨e, he⟩ := outcome_of_isSpent hmem hspent hfree
      obtain ⟨t, ht⟩ := decisionOf_of_reading hr he
      simp only [hvs]
      exact ⟨t, ht⟩
    · cases hmem

/-- No budget has been used up if no fault could have been taken. -/
theorem spent_eq_zero {ms : List Machine} (h : ∀ m ∈ ms, m.isSpent = true → m.isGuarded = true)
    (hfree : ∀ m ∈ ms, m.isSpent = true → m.isGuarded = false) : spent ms = 0 := by
  rw [spent, List.countP_eq_zero]
  intro m hm hspent
  exact absurd ((h m hm hspent).symm.trans (hfree m hm hspent)) (by decide)

/-- **A decision comes within the budget**, unless a protected call takes the fault
    of a budget that is used up.  Where none is under way, an evaluation that uses
    up its budget is an error: of the script in its main function, of the contract
    where its globals are read.  Each fault that is taken begins another budget; and
    what its handler executes, if it has one, does not count.

    Finalizers are left out: the collector would call them without watching the
    budget. -/
theorem decides_within_budget (limits : Limits) (event : Payload) (prior : Option Payload)
    (source : String) (_hplain : finalizes limits event prior source = false) :
    let ms := course limits event prior source
    let n := limits.effective.instructions
    let r := evaluate limits event prior source
    counted ms < n + spent ms * (n - 1) ∧
      ((∀ m ∈ ms, m.isSpent = true → m.isHandled = false) →
        executed ms < n + spent ms * (n - 1)) ∧
      (∀ d, r = .ok d → ∀ m ∈ ms, m.isSpent = true → m.isGuarded = true) ∧
      ((∀ m ∈ ms, m.isSpent = true → m.isGuarded = false) →
        (∀ d, r = .ok d → executed ms < n) ∧
        (∀ m ∈ mainCourse limits event prior source, m.isSpent = true →
          ∃ t, r = .error (.runtime t)) ∧
        (∀ m ∈ readingCourse limits event prior source, m.isSpent = true →
          ∃ t, r = .error (.contract t))) := by
  intro ms n r
  have hlt : counted ms < n + spent ms * (n - 1) := counted_course_lt limits event prior source
  have hexecuted (hnobody : ∀ m ∈ ms, m.isSpent = true → m.isHandled = false) :
      executed ms < n + spent ms * (n - 1) := by
    rwa [executed_eq, show unwatched ms = 0 from unwatched_course_eq_zero hnobody, Nat.add_zero]
  have hguarded (d : Decision) (hd : r = .ok d) :
      ∀ m ∈ ms, m.isSpent = true → m.isGuarded = true := by
    intro m hm hspent
    by_contra hfree
    rw [Bool.not_eq_true] at hfree
    rcases List.mem_append.1 hm with hm | hm
    · obtain ⟨t, ht⟩ := evaluate_of_mainCourse hm hspent hfree
      cases hd.symm.trans ht
    · obtain ⟨t, ht⟩ := evaluate_of_readingCourse hm hspent hfree
      cases hd.symm.trans ht
  refine ⟨hlt, hexecuted, hguarded, fun hfree =>
    ⟨fun d hd => ?_, fun m hm hspent => ?_, fun m hm hspent => ?_⟩⟩
  · -- a fault that nothing takes does not end in a decision, so there was none
    have hnone := spent_eq_zero (hguarded d hd) hfree
    have hnobody : ∀ m ∈ ms, m.isSpent = true → m.isHandled = false := fun m hm hspent =>
      absurd ((hguarded d hd m hm hspent).symm.trans (hfree m hm hspent)) (by decide)
    have hexecuted := hexecuted hnobody
    rwa [hnone, Nat.zero_mul, Nat.add_zero] at hexecuted
  · exact evaluate_of_mainCourse hm hspent (hfree m (List.mem_append_left _ hm) hspent)
  · exact evaluate_of_readingCourse hm hspent (hfree m (List.mem_append_right _ hm) hspent)

/-- A loop without end is an error, a short script makes its decision; both have
    fifty instructions. -/
theorem decides_within_budget_loop :
    let limits : Limits := ⟨50, 0⟩
    let short := "nextAction = 'x' result = \x7b\x7d"
    (∃ t, evaluate limits [] none "while true do end" = .error (.runtime t)) ∧
      ∃ d, evaluate limits [] none short = .ok d ∧ executed (course limits [] none short) < 50 := by
  intro limits short
  obtain ⟨-, -, -, hloop⟩ := decides_within_budget limits [] none "while true do end"
    (by decide +kernel)
  obtain ⟨-, -, -, hshort⟩ := decides_within_budget limits [] none short (by decide +kernel)
  constructor
  · have hfree : ∀ m ∈ course limits [] none "while true do end",
        m.isSpent = true → m.isGuarded = false := by decide +kernel
    have hspent : (mainCourse limits [] none "while true do end").any isSpent = true := by
      decide +kernel
    obtain ⟨m, hm, hspent⟩ := List.any_eq_true.1 hspent
    exact (hloop hfree).2.1 m hm hspent
  · have hfree : ∀ m ∈ course limits [] none short, m.isSpent = true → m.isGuarded = false := by
      decide +kernel
    have hok : (evaluate limits [] none short).isOk = true := by decide +kernel
    cases hd : evaluate limits [] none short with
    | error e =>
      rw [hd] at hok
      cases hok
    | ok d => exact ⟨d, rfl, (hshort hfree).1 d hd⟩

/-- A script that takes the fault of its budget three times goes on to its decision
    beyond three budgets. -/
theorem decides_beyond_budget :
    let limits : Limits := ⟨50, 0⟩
    let source :=
      "for i = 1, 3 do pcall(function() while true do end end) end nextAction = 'x' result = \x7b\x7d"
    ∃ d, evaluate limits [] none source = .ok d ∧ 150 < executed (course limits [] none source) := by
  intro limits source
  have hok : (evaluate limits [] none source).isOk = true := by decide +kernel
  have hexecuted : 150 < executed (course limits [] none source) := by decide +kernel
  cases hd : evaluate limits [] none source with
  | error e =>
    rw [hd] at hok
    cases hok
  | ok d => exact ⟨d, rfl, hexecuted⟩

/-- What a handler executes that is told of the fault does not count. -/
example :
    let source :=
      "xpcall(function() while true do end end, function() for i = 1, 200 do end end)"
    let ms := course ⟨50, 0⟩ [] none source
    counted ms < 100 ∧ 200 < unwatched ms := by
  decide +kernel

end Reactor.Script
