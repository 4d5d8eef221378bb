/-
  The course of an evaluation.

  A machine runs the main function of a script; if that ends well, more machines
  read what it has left, each where the one before has ended.

  * `begun` is the machine of the main function, `ended` the same when it has run;
    `reading` is one that reads a global, `namesRead` are the globals that are read;
  * `evaluate_of_begun` and `decisionOf_of_reading`: what the evaluation makes of
    how each of them ends; `evaluate_eq_continue`: where an input comes from;
  * `mainCourse` and `readingCourse` are the machines that all of them go through,
    `course` is both; `last` is the one that the evaluation ends with.
-/
import Reactor.Proofs.Lua.Budget
import Reactor.Proofs.Script.Passing

namespace Reactor.Script

open Lua

variable {limits : Limits} {event : Payload} {prior : Option Payload} {source : String}
  {m m' : Machine} {name : String} {f : ContractFault}

/-! ## The main function -/

/-- The machine that starts on the main function of a script. -/
def startMain (l : Limits) (h : Heap) (proto : Proto) : Machine :=
  Machine.start h l.instructions do
    let f ← Library.instantiate proto (.table h.globals)
    Lua.Task.call f #[] none

theorem runMain_eq_startMain (l : Limits) (h : Heap) (proto : Proto) :
    runMain l h proto = (startMain l h proto).run horizon := by
  unfold runMain startMain
  rfl

theorem extends_startMain (l : Limits) (h : Heap) (proto : Proto) :
    Machine.Extends ⟨h, .deliver #[], [], 0, 0, l.instructions, l.instructions⟩
      (startMain l h proto) := Machine.extends_start h l.instructions _

/-- The machine that starts on a script; `none` if the data is too large for it, or
    the source has no main function. -/
def begun (limits : Limits) (event : Payload) (prior : Option Payload) (source : String) :
    Option Machine :=
  let h := seeded limits.effective event prior
  if h.used > h.limit then none
  else
    match parse 0 source.toUTF8 with
    | .ok program => some (startMain limits.effective h (compile scriptName program))
    | .error _ => none

theorem begun_eq_some : begun limits event prior source = some m ↔
    ¬(seeded limits.effective event prior).used > (seeded limits.effective event prior).limit ∧
      ∃ program, parse 0 source.toUTF8 = .ok program ∧
        startMain limits.effective (seeded limits.effective event prior)
          (compile scriptName program) = m := by
  unfold begun
  dsimp only
  split
  · rename_i hlarge
    exact ⟨nofun, fun h => absurd hlarge h.1⟩
  · rename_i hfits
    cases parse 0 source.toUTF8 with
    | error e => exact ⟨nofun, fun ⟨_, _, hparse, _⟩ => nomatch hparse⟩
    | ok program =>
      rw [Option.some_inj]
      exact ⟨fun h => ⟨hfits, program, rfl, h⟩, fun ⟨_, _, hparse, h⟩ => Except.ok.inj hparse ▸ h⟩

theorem evaluate_of_begun (h : begun limits event prior source = some m) :
    evaluate limits event prior source = decided (m.run horizon) := by
  obtain ⟨hfits, program, hparse, hstart⟩ := begun_eq_some.1 h
  rw [evaluate_eq rfl hparse, if_neg hfits, runMain_eq_startMain, hstart]

/-- Without a machine there is no decision. -/
theorem evaluate_of_begun_eq_none (h : begun limits event prior source = none) :
    ∃ e, evaluate limits event prior source = .error e := by
  unfold begun at h
  dsimp only at h
  unfold evaluate
  dsimp only
  split at h
  · rename_i hlarge
    rw [if_pos hlarge]
    exact ⟨_, rfl⟩
  · rename_i hfits
    rw [if_neg hfits]
    cases hparse : parse 0 source.toUTF8 with
    | error e => cases e <;> exact ⟨_, rfl⟩
    | ok program =>
      rw [hparse] at h
      exact nomatch h

/-- The machine of the main function may use what the limits allow. -/
theorem budget_of_begun (h : begun limits event prior source = some m) :
    m.left = limits.effective.instructions ∧ m.budget = limits.effective.instructions := by
  obtain ⟨-, program, -, rfl⟩ := begun_eq_some.1 h
  have hextends := extends_startMain limits.effective (seeded limits.effective event prior)
    (compile scriptName program)
  exact ⟨hextends.left, hextends.budget⟩

/-! ## Reading globals -/

/-- Reads a global through the metamethods of the globals. -/
def readTask (m : Machine) (name : String) : Lua.Task (Array Value) := do
  return #[← Operation.index (.table m.heap.globals) (.ofString name) none]

/-- The machine that starts to read a global, where another has ended. -/
def reading (m : Machine) (name : String) : Machine :=
  { Machine.start m.heap m.budget (readTask m name) with left := m.left }

theorem reading_budget (m : Machine) (name : String) : (reading m name).budget = m.budget :=
  (Machine.extends_start m.heap m.budget (readTask m name)).budget

theorem goOn_readTask (m : Machine) (name : String) :
    goOn m (readTask m name) = (reading m name).run horizon := by
  unfold goOn reading
  rfl

theorem readGlobal_eq_of_reading (m : Machine) (name : String) : readGlobal m name =
    match outcome ((reading m name).run horizon) with
    | .ok vs => ((reading m name).run horizon, .ok (vs.getD 0 .nil))
    | .error e => ((reading m name).run horizon,
        .error (.unreadable name (faultText e))) := by
  rw [← goOn_readTask]
  unfold readGlobal readTask
  rfl

theorem readGlobal_fst (m : Machine) (name : String) :
    (readGlobal m name).1 = (reading m name).run horizon := by
  rw [readGlobal_eq_of_reading]
  split <;> rfl

theorem readText_fst (m : Machine) (name : String) :
    (readText m name).1 = (reading m name).run horizon := readGlobal_fst m name

/-- A machine that ends with a fault has not read a global. -/
theorem readGlobal_of_error {e : Fault} (h : outcome ((reading m name).run horizon) = .error e) :
    ∃ f, (readGlobal m name).2 = .error f := by
  rw [readGlobal_eq_of_reading, h]
  exact ⟨_, rfl⟩

theorem readText_of_error {e : Fault} (h : outcome ((reading m name).run horizon) = .error e) :
    ∃ f, (readText m name).2 = .error f := by
  obtain ⟨f, hf⟩ := readGlobal_of_error h
  refine ⟨f, ?_⟩
  rw [readText]
  simp only [hf]

/-! ## The decision -/

/-- The globals that are read, in order: the next step only if there is no error,
    the result only if there is a next step. -/
def namesRead (m : Machine) : List String :=
  match readText m "err" with
  | (m, .ok "") =>
    match (readText m "nextAction").2 with
    | .ok "" | .error _ => ["err", "nextAction"]
    | .ok _ => ["err", "nextAction", "result"]
  | _ => ["err"]

/-- The machines that start to read globals, each where the one before has ended. -/
def readings (m : Machine) : List String → List Machine
  | [] => []
  | name :: names => reading m name :: readings ((reading m name).run horizon) names

theorem decisionOf_of_err (h : (readText m "err").2 = .error f) :
    decisionOf m = .error f.toError := by
  unfold decisionOf
  simp only [h]
  rfl

theorem decisionOf_of_next {err : Machine} (herr : readText m "err" = (err, .ok ""))
    (h : (readText err "nextAction").2 = .error f) : decisionOf m = .error f.toError := by
  unfold decisionOf
  simp only [herr, h]
  rfl

theorem decisionOf_of_result {err next : Machine} {n : String}
    (herr : readText m "err" = (err, .ok "")) (hnext : readText err "nextAction" = (next, .ok n))
    (hne : n ≠ "") (h : (readGlobal next "result").2 = .error f) :
    decisionOf m = .error f.toError := by
  have hok {α : Type} (a : α) : (Except.ok a).mapError ContractFault.toError = .ok a := rfl
  unfold decisionOf
  simp only [herr, hnext, h, hok, Except.ok_bind, ne_eq, not_true_eq_false, if_false, if_neg hne]
  rfl

/-- **A machine that fails to read a global** ends in a breach of the contract. -/
theorem decisionOf_of_reading {r : Machine} {e : Fault} (hr : r ∈ readings m (namesRead m))
    (h : outcome (r.run horizon) = .error e) : ∃ t, decisionOf m = .error (.contract t) := by
  have herr : r = reading m "err" → ∃ t, decisionOf m = .error (.contract t) := by
    rintro rfl
    obtain ⟨f, hf⟩ := readText_of_error h
    exact ⟨_, decisionOf_of_err hf⟩
  unfold namesRead at hr
  split at hr
  · rename_i m₁ hread
    have hm₁ : m₁ = (reading m "err").run horizon := by rw [← readText_fst, hread]
    have hnext : r = reading m₁ "nextAction" → ∃ t, decisionOf m = .error (.contract t) := by
      rintro rfl
      obtain ⟨f, hf⟩ := readText_of_error h
      exact ⟨_, decisionOf_of_next hread hf⟩
    split at hr
    · simp only [readings, ← hm₁, List.mem_cons, List.not_mem_nil, or_false] at hr
      exact hr.elim herr hnext
    · simp only [readings, ← hm₁, List.mem_cons, List.not_mem_nil, or_false] at hr
      exact hr.elim herr hnext
    · rename_i n hne hn
      have hread₂ : readText m₁ "nextAction" = ((reading m₁ "nextAction").run horizon, .ok n) :=
        Prod.ext (readText_fst m₁ "nextAction") hn
      simp only [readings, ← hm₁, List.mem_cons, List.not_mem_nil, or_false] at hr
      rcases hr with hr | hr | rfl
      · exact herr hr
      · exact hnext hr
      · obtain ⟨f, hf⟩ := readGlobal_of_error h
        exact ⟨_, decisionOf_of_result hread hread₂ hne hf⟩
  · simp only [readings, List.mem_cons, List.not_mem_nil, or_false] at hr
    exact herr hr

/-- Reads the result, after the globals that are read before it. -/
def resultOf (m : Machine) : Machine × Except ContractFault Value :=
  readGlobal (readText (readText m "err").1 "nextAction").1 "result"

/-- **The input of the next step** is the result, in the heap that reading it leaves. -/
theorem decisionOf_eq_continue {next : String} {input : Payload}
    (h : decisionOf m = .ok (.continue_ next input)) :
    ∃ v, (resultOf m).2 = .ok v ∧ resultInput (resultOf m).1.heap next v = .ok input := by
  unfold decisionOf at h
  unfold resultOf
  rcases herr : readText m "err" with ⟨m₁, err⟩
  rcases hnext : readText m₁ "nextAction" with ⟨m₂, n⟩
  rcases hresult : readGlobal m₂ "result" with ⟨m₃, result⟩
  simp only [herr, hnext, hresult] at h ⊢
  obtain ⟨e, -, h⟩ := Except.bind_eq_ok.1 h
  split at h
  · cases h
  · obtain ⟨n, -, h⟩ := Except.bind_eq_ok.1 h
    split at h
    · cases h
    · obtain ⟨v, hv, h⟩ := Except.bind_eq_ok.1 h
      obtain ⟨input, hinput, h⟩ := Except.bind_eq_ok.1 h
      cases h
      exact ⟨v, mapError_eq_ok.1 hv, mapError_eq_ok.1 hinput⟩

/-- An input is a table that is an object. -/
theorem resultInput_eq_ok {h : Heap} {v : Value} {next : String} {input : Payload}
    (hok : resultInput h next v = .ok input) :
    ∃ r, v = .table r ∧ tableToJson h maxResultDepth r = .ok (.obj input) := by
  cases v with
  | table r =>
    obtain ⟨j, hj, hobj⟩ := Except.bind_eq_ok.1 hok
    cases j with
    | obj fields => cases hobj; exact ⟨r, rfl, hj⟩
    | _ => cases hobj
  | _ => cases hok

/-- The machine that has run the main function of a script. -/
def ended (limits : Limits) (event : Payload) (prior : Option Payload) (source : String) :
    Option Machine :=
  (begun limits event prior source).map fun m => m.run horizon

theorem evaluate_eq_continue {next : String} {input : Payload}
    (h : evaluate limits event prior source = .ok (.continue_ next input)) :
    ∃ m v, ended limits event prior source = some m ∧ (resultOf m).2 = .ok v ∧
      resultInput (resultOf m).1.heap next v = .ok input := by
  cases hbegun : begun limits event prior source with
  | none =>
    obtain ⟨e, he⟩ := evaluate_of_begun_eq_none hbegun
    rw [he] at h
    cases h
  | some m =>
    refine ⟨m.run horizon, ?_⟩
    rw [evaluate_of_begun hbegun, decided] at h
    rw [ended, hbegun, Option.map_some]
    generalize m.run horizon = last at h
    split at h
    · cases h
    · obtain ⟨v, hv, hinput⟩ := decisionOf_eq_continue h
      exact ⟨v, rfl, hv, hinput⟩

/-! ## The course -/

/-- The machines that read what a machine has left, if it has ended well. -/
def readingsPath (m : Machine) : List Machine :=
  match outcome m with
  | .ok _ => (readings m (namesRead m)).flatMap fun r => r.path horizon
  | .error _ => []

/-- The machines that the main function of a script goes through. -/
def mainCourse (limits : Limits) (event : Payload) (prior : Option Payload) (source : String) :
    List Machine :=
  (begun limits event prior source).elim [] fun m => m.path horizon

/-- The machines that read what the main function has left. -/
def readingCourse (limits : Limits) (event : Payload) (prior : Option Payload) (source : String) :
    List Machine :=
  (begun limits event prior source).elim [] fun m => readingsPath (m.run horizon)

/-- All machines that an evaluation goes through up to its decision. -/
def course (limits : Limits) (event : Payload) (prior : Option Payload) (source : String) :
    List Machine :=
  mainCourse limits event prior source ++ readingCourse limits event prior source

/-- The machine that has read globals, after another has ended. -/
def afterReading (m : Machine) (names : List String) : Machine :=
  names.foldl (fun m name => (reading m name).run horizon) m

/-- The machine that an evaluation ends with, if it has run the script. -/
def last (limits : Limits) (event : Payload) (prior : Option Payload) (source : String) :
    Option Machine :=
  (ended limits event prior source).map fun m =>
    match outcome m with
    | .ok _ => afterReading m (namesRead m)
    | .error _ => m

/-- A table has been given a finalizer in the course of an evaluation. -/
def finalizes (limits : Limits) (event : Payload) (prior : Option Payload) (source : String) :
    Bool :=
  (last limits event prior source).any fun m => !m.heap.finalizable.isEmpty

theorem mainCourse_of_begun (h : begun limits event prior source = some m) :
    mainCourse limits event prior source = m.path horizon := by
  rw [mainCourse, h, Option.elim_some]

theorem readingCourse_of_begun (h : begun limits event prior source = some m) :
    readingCourse limits event prior source = readingsPath (m.run horizon) := by
  rw [readingCourse, h, Option.elim_some]

theorem course_of_begun (h : begun limits event prior source = some m) :
    course limits event prior source = m.path horizon ++ readingsPath (m.run horizon) := by
  rw [course, mainCourse_of_begun h, readingCourse_of_begun h]

theorem course_of_begun_eq_none (h : begun limits event prior source = none) :
    course limits event prior source = [] := by
  rw [course, mainCourse, readingCourse, h, Option.elim_none, Option.elim_none, List.append_nil]

end Reactor.Script
