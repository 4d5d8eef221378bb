/-
  What a pipeline does, act by act.

  Modules may answer in any way, also differently each time: `Answers` are the
  answers that they may give.

  * `Pipeline.Runs` are the runs of a pipeline with the acts in order, and
    `runs_run` says that `Pipeline.run` is one of them;
  * `Act.Follows` says which act may come after which;
  * `Stage` says what the acts so far have to do with what comes next, and
    `Tracked` is the invariant of a run; `Tracked.moves`: each move keeps it;
  * `Traced` is what the acts of a run look like that has ended, and
    `traced_of_runs`: they do.
-/
import Mathlib.Data.List.Chain
import Reactor.Engine.Pipeline

namespace Reactor

/-- What an action of a module may answer to its input. -/
abbrev Answers := ActionModule → String → Payload → Except ActionError Payload → Prop

/-- The answers of modules that go by the action and its input alone. -/
def ActionModule.answers : Answers := fun m action input r => r = m.dispatch action input

namespace Act

/-- Whether an act is the evaluation of a script. -/
def isEvaluation : Act → Bool
  | evaluated .. => true
  | dispatched .. => false

/-- The step whose action has succeeded. -/
def succeeded? : Act → Option String
  | dispatched step _ _ _ (.ok _) => some step
  | _ => none

/-! ## What follows what -/

section

variable (w : Surroundings) (answers : Answers) (event : Event) (reaction : Reaction)

/-- The evaluation of a script on the event. -/
def evaluation (prior : Option Payload) (script : String) : Act :=
  .evaluated event.data prior script (w.evaluate event.data prior script)

/-- An act that comes after another: what a script picks is dispatched if it can
    be, and a step with a script is followed by its evaluation. -/
inductive Follows : Act → Act → Prop
  | dispatch {data : Payload} {prior : Option Payload} {script n : String} {d : Payload}
      {s : ActionStep} {m : ActionModule} {r : Except ActionError Payload} :
      reaction.step? n = some s → w.actions.lookup s.module = .ok m → answers m s.action d r →
      Follows (.evaluated data prior script (.ok (.continue_ n d)))
        (.dispatched n s.module s.action d r)
  | evaluate {n module action : String} {d o : Payload} {s : ActionStep} :
      reaction.step? n = some s → s.script ≠ "" →
      Follows (.dispatched n module action d (.ok o)) (.evaluation w event (some o) s.script)

/-- An act that ends a run in error. -/
inductive Fails : Act → Prop
  | script {data : Payload} {prior : Option Payload} {script : String} {e : ScriptError} :
      Fails (.evaluated data prior script (.error e))
  | unknown {data : Payload} {prior : Option Payload} {script n : String} {d : Payload} :
      reaction.step? n = none → Fails (.evaluated data prior script (.ok (.continue_ n d)))
  | unregistered {data : Payload} {prior : Option Payload} {script n : String} {d : Payload}
      {s : ActionStep} {e : RegistryError} :
      reaction.step? n = some s → w.actions.lookup s.module = .error e →
      Fails (.evaluated data prior script (.ok (.continue_ n d)))
  | action {n module action : String} {d : Payload} {e : ActionError} :
      Fails (.dispatched n module action d (.error e))

end

end Act

namespace Pipeline

/-! ## Runs -/

/-- A step of a pipeline, with what it did. -/
inductive Moves (w : Surroundings) (answers : Answers) : Pipeline → Option Act → Pipeline → Prop
  | start {p : Pipeline} : p.phase = .start → Moves w answers p none p.begin
  | evaluate {p : Pipeline} {prior : Option Payload} {script : String} :
      p.phase = .evaluate prior script →
      Moves w answers p
        (some (.evaluated p.event.data prior script (w.evaluate p.event.data prior script)))
        (p.onDecision w.actions prior.isNone (w.evaluate p.event.data prior script))
  | dispatch {p : Pipeline} {step : String} {m : ActionModule} {input : Payload}
      {r : Except ActionError Payload} :
      p.phase = .dispatch step m input → answers m (p.target step).2 input r →
      Moves w answers p (some (.dispatched step (p.target step).1 (p.target step).2 input r))
        (p.onOutput step r)

/-- The runs of a pipeline, with all that was done, in order. -/
inductive Runs (w : Surroundings) (answers : Answers) (p : Pipeline) : List Act → Pipeline → Prop
  | refl : Runs w answers p [] p
  | step {acts : List Act} {q r : Pipeline} {a : Option Act} :
      Runs w answers p acts q → Moves w answers q a r → Runs w answers p (acts ++ a.toList) r

theorem moves_step {w : Surroundings} {p : Pipeline} (h : p.isEnded = false) :
    Moves w ActionModule.answers p (p.step w).2 (p.step w).1 := by
  unfold Pipeline.step
  cases hp : p.phase with
  | start => exact .start hp
  | evaluate prior script => exact .evaluate hp
  | dispatch step m input => exact .dispatch hp rfl
  | ended e => rw [isEnded, hp] at h; cases h

/-- `Pipeline.run` is a run. -/
theorem runs_run {w : Surroundings} {p : Pipeline} : ∀ (fuel : Nat) {acts : List Act} {q : Pipeline},
    Runs w ActionModule.answers p acts q →
    Runs w ActionModule.answers p (acts ++ (q.run w fuel).2) (q.run w fuel).1
  | 0, acts, q, h => by rw [run, List.append_nil]; exact h
  | fuel + 1, acts, q, h => by
    cases hq : q.isEnded with
    | true => rw [run, if_pos hq, List.append_nil]; exact h
    | false =>
      rw [run, if_neg (by simp [hq])]
      have := runs_run fuel (h.step (moves_step hq))
      rwa [List.append_assoc] at this

/-! ## The invariant -/

section

variable (w : Surroundings) (answers : Answers) (event : Event) (reaction : Reaction)

/-- Acts each of which follows the one before, from the evaluation of the
    reaction's script on. -/
def Linked (acts : List Act) : Prop :=
  acts.IsChain (Act.Follows w answers event reaction) ∧
    ∀ a ∈ acts.head?, a = .evaluation w event none reaction.script

/-- What a pipeline is about to do after some acts, and how it has ended. -/
inductive Stage : List Act → State → Phase → Prop
  | start : Stage [] .init .start
  | entry : Stage [] .awaitingScript (.evaluate none reaction.script)
  | dispatch {acts : List Act} {prior : Option Payload} {script n : String} {d : Payload}
      {s : ActionStep} {m : ActionModule} :
      reaction.step? n = some s → w.actions.lookup s.module = .ok m →
      Stage (acts ++ [.evaluated event.data prior script (.ok (.continue_ n d))]) (.running n)
        (.dispatch n m d)
  | followUp {acts : List Act} {n module action : String} {d o : Payload} {s : ActionStep} :
      reaction.step? n = some s → s.script ≠ "" →
      Stage (acts ++ [.dispatched n module action d (.ok o)]) (.running n)
        (.evaluate (some o) s.script)
  | notLaunched :
      Stage [.evaluated event.data none reaction.script (.ok .stop)] .notLaunched (.ended none)
  | finished {acts : List Act} {n module action : String} {d o : Payload} {s : ActionStep} :
      reaction.step? n = some s → s.script = "" →
      Stage (acts ++ [.dispatched n module action d (.ok o)]) .done (.ended none)
  | stopped {acts : List Act} {n module action : String} {d o : Payload} {s : ActionStep} :
      reaction.step? n = some s → s.script ≠ "" →
      Stage (acts ++ [.dispatched n module action d (.ok o)] ++
        [.evaluated event.data (some o) s.script (.ok .stop)]) .done (.ended none)
  | failed {acts : List Act} {a : Act} {state : State} {e : PipelineError} :
      a.Fails w reaction → Stage (acts ++ [a]) state (.ended (some e))

/-- What holds of a run at any time. -/
structure Tracked (acts : List Act) (p : Pipeline) : Prop where
  sameEvent : p.event = event
  sameReaction : p.reaction = reaction
  completed : p.completed = acts.filterMap Act.succeeded?
  linked : Linked w answers event reaction acts
  stage : Stage w event reaction acts p.state p.phase

end

/-! ## What changes -/

/-- Pipelines on the same event and reaction that have completed the same
    steps. -/
def Same (p q : Pipeline) : Prop :=
  q.event = p.event ∧ q.reaction = p.reaction ∧ q.completed = p.completed

theorem same_fail (p : Pipeline) (e : PipelineError) : p.Same (p.fail e) := ⟨rfl, rfl, rfl⟩

theorem same_enter (p : Pipeline) (target : State) (phase : Phase) :
    p.Same (p.enter target phase) := by
  unfold enter
  split
  · exact ⟨rfl, rfl, rfl⟩
  · exact same_fail p _

theorem same_goTo (p : Pipeline) (actions : Registry ActionModule) (n : String) (d : Payload) :
    p.Same (p.goTo actions n d) := by
  unfold goTo
  split
  · exact same_fail p _
  · split
    · exact same_fail p _
    · exact ⟨rfl, rfl, rfl⟩
    · exact ⟨rfl, rfl, rfl⟩

theorem same_onDecision (p : Pipeline) (actions : Registry ActionModule) (isFirst : Bool)
    (d : Except ScriptError Decision) : p.Same (p.onDecision actions isFirst d) := by
  unfold onDecision
  split
  · exact same_fail p _
  · exact same_enter p _ _
  · exact same_goTo p _ _ _

variable {w : Surroundings} {answers : Answers} {event : Event} {reaction : Reaction}
  {acts : List Act}

theorem Linked.concat (h : Linked w answers event reaction acts) {a : Act}
    (hfirst : acts = [] → a = .evaluation w event none reaction.script)
    (hlast : ∀ x ∈ acts.getLast?, x.Follows w answers event reaction a) :
    Linked w answers event reaction (acts ++ [a]) := by
  refine ⟨h.1.append (.singleton a) fun x hx y hy => ?_, fun x hx => ?_⟩
  · cases hy; exact hlast x hx
  · cases acts with
    | nil => cases hx; exact hfirst rfl
    | cons b acts => exact h.2 x hx

/-! ## Evaluations -/

theorem stage_goTo {p : Pipeline} (hr : p.reaction = reaction)
    (hstate : ∀ n, p.state.allows (.running n) = true) (prior : Option Payload) (script n : String)
    (d : Payload) :
    Stage w event reaction (acts ++ [.evaluated event.data prior script (.ok (.continue_ n d))])
      (p.goTo w.actions n d).state (p.goTo w.actions n d).phase := by
  have htransition : p.state.transition (.running n) = .ok (.running n) :=
    if_pos (hstate n)
  unfold goTo
  rw [hr, htransition]
  cases hs : reaction.step? n with
  | none => exact .failed (.unknown hs)
  | some s =>
    dsimp only
    cases hm : w.actions.lookup s.module with
    | error e => exact .failed (.unregistered hs hm)
    | ok m => exact .dispatch hs hm

theorem Stage.onDecision {p : Pipeline} (hr : p.reaction = reaction) {prior : Option Payload}
    {script : String} (h : Stage w event reaction acts p.state (.evaluate prior script)) :
    Stage w event reaction (acts ++ [.evaluation w event prior script])
      (p.onDecision w.actions prior.isNone (w.evaluate event.data prior script)).state
      (p.onDecision w.actions prior.isNone (w.evaluate event.data prior script)).phase := by
  rw [Act.evaluation]
  generalize hstate : p.state = state at h
  cases hd : w.evaluate event.data prior script with
  | error e => exact .failed .script
  | ok d =>
    cases d with
    | stop =>
      cases h with
      | entry => rw [Pipeline.onDecision, enter, hstate]; exact .notLaunched
      | followUp hs hne => rw [Pipeline.onDecision, enter, hstate]; exact .stopped hs hne
    | continue_ n d =>
      refine stage_goTo hr (fun n => ?_) prior script n d
      cases h with
      | entry => rw [hstate]; rfl
      | followUp => rw [hstate]; rfl

theorem Stage.evaluation_due {state : State} {prior : Option Payload} {script : String}
    (h : Stage w event reaction acts state (.evaluate prior script)) :
    (acts = [] → Act.evaluation w event prior script = .evaluation w event none reaction.script) ∧
      ∀ x ∈ acts.getLast?, x.Follows w answers event reaction (.evaluation w event prior script) := by
  cases h with
  | entry => exact ⟨fun _ => rfl, fun x hx => nomatch hx⟩
  | followUp hs hne =>
    refine ⟨fun h => by simp at h, fun x hx => ?_⟩
    rw [List.getLast?_concat] at hx
    cases hx
    exact .evaluate hs hne

/-! ## Dispatches -/

theorem onOutput_ok {p : Pipeline} {n : String} {s : ActionStep} (hs : p.reaction.step? n = some s)
    (o : Payload) :
    p.onOutput n (.ok o) =
      if s.script = "" then { p with completed := p.completed ++ [n] }.enter .done (.ended none)
      else { p with completed := p.completed ++ [n], phase := .evaluate (some o) s.script } := by
  simp only [Pipeline.onOutput, hs]

theorem onOutput_frame {p : Pipeline} {n : String} {s : ActionStep}
    (hs : p.reaction.step? n = some s) (r : Except ActionError Payload) (module action : String)
    (d : Payload) :
    (p.onOutput n r).event = p.event ∧ (p.onOutput n r).reaction = p.reaction ∧
      (p.onOutput n r).completed =
        p.completed ++ [Act.dispatched n module action d r].filterMap Act.succeeded? := by
  cases r with
  | error e => exact ⟨rfl, rfl, (List.append_nil _).symm⟩
  | ok o =>
    rw [onOutput_ok hs o]
    split
    · exact same_enter { p with completed := p.completed ++ [n] } _ _
    · exact ⟨rfl, rfl, rfl⟩

theorem Stage.onOutput {p : Pipeline} (hr : p.reaction = reaction) {n : String} {m : ActionModule}
    {input : Payload} (h : Stage w event reaction acts p.state (.dispatch n m input))
    (r : Except ActionError Payload) (module action : String) :
    Stage w event reaction (acts ++ [.dispatched n module action input r]) (p.onOutput n r).state
      (p.onOutput n r).phase := by
  generalize hstate : p.state = state at h
  cases h with
  | dispatch hs hm =>
    rename_i s
    cases r with
    | error e => exact .failed .action
    | ok o =>
      rw [onOutput_ok (hr ▸ hs) o]
      split
      · rename_i hscript
        rw [enter, hstate]
        exact .finished hs hscript
      · rename_i hscript
        rw [hstate]
        exact .followUp hs hscript

theorem Stage.dispatch_due {state : State} {n : String} {m : ActionModule} {input : Payload}
    (h : Stage w event reaction acts state (.dispatch n m input)) :
    ∃ s, reaction.step? n = some s ∧ acts ≠ [] ∧
      ∀ r, answers m s.action input r → ∀ x ∈ acts.getLast?,
        x.Follows w answers event reaction (.dispatched n s.module s.action input r) := by
  cases h with
  | dispatch hs hm =>
    refine ⟨_, hs, by simp, fun r hr x hx => ?_⟩
    rw [List.getLast?_concat] at hx
    cases hx
    exact .dispatch hs hm hr

/-! ## Every move -/

theorem Tracked.new (event : Event) (reaction : Reaction) :
    Tracked w answers event reaction [] (.new event reaction) :=
  ⟨rfl, rfl, rfl, ⟨.nil, fun _ h => nomatch h⟩, .start⟩

theorem Tracked.moves {p q : Pipeline} {a : Option Act}
    (h : Tracked w answers event reaction acts p) (hm : Moves w answers p a q) :
    Tracked w answers event reaction (acts ++ a.toList) q := by
  obtain ⟨rfl, rfl, hcompleted, hlinked, hstage⟩ := h
  cases hm with
  | start hp =>
    rw [hp] at hstage
    generalize hstate : p.state = state at hstage
    cases hstage
    rw [begin, enter, hstate]
    exact ⟨rfl, rfl, hcompleted, hlinked, .entry⟩
  | evaluate hp =>
    rw [hp] at hstage
    obtain ⟨hevent, hreaction, hsame⟩ := same_onDecision p w.actions _ _
    obtain ⟨hfirst, hlast⟩ := hstage.evaluation_due
    refine ⟨hevent, hreaction, ?_, hlinked.concat hfirst hlast, hstage.onDecision rfl⟩
    rw [hsame, hcompleted, List.filterMap_append]
    exact (List.append_nil _).symm
  | @dispatch n m input r hp hr =>
    rw [hp] at hstage
    obtain ⟨s, hs, hne, hlast⟩ := hstage.dispatch_due
    have htarget : p.target n = (s.module, s.action) := by rw [target, hs]
    rw [htarget] at hr ⊢
    obtain ⟨hevent, hreaction, hframe⟩ := onOutput_frame hs r s.module s.action input
    refine ⟨hevent, hreaction, ?_, hlinked.concat (fun h => absurd h hne) (hlast r hr),
      hstage.onOutput rfl r _ _⟩
    rw [hframe, hcompleted, ← List.filterMap_append]
    rfl

theorem Tracked.runs {p : Pipeline} (h : Runs w answers (.new event reaction) acts p) :
    Tracked w answers event reaction acts p := by
  induction h with
  | refl => exact .new event reaction
  | step _ hm ih => exact ih.moves hm

/-! ## Neighbours -/

theorem not_follows_stop {data : Payload} {prior : Option Payload} {script : String} (b : Act) :
    ¬ Act.Follows w answers event reaction (.evaluated data prior script (.ok .stop)) b := nofun

theorem not_follows_empty {n : String} {s : ActionStep} (hs : reaction.step? n = some s)
    (hscript : s.script = "") {module action : String} {d : Payload}
    {r : Except ActionError Payload} (b : Act) :
    ¬ Act.Follows w answers event reaction (.dispatched n module action d r) b := by
  intro h
  cases h with
  | evaluate hs' hne =>
    rw [hs] at hs'
    cases hs'
    exact hne hscript

theorem not_follows_of_fails {a : Act} (h : a.Fails w reaction) (b : Act) :
    ¬ a.Follows w answers event reaction b := by
  intro hb
  cases hb with
  | dispatch hs hm =>
    cases h with
    | unknown hnone => rw [hs] at hnone; cases hnone
    | unregistered hs' hm' =>
      rw [hs] at hs'
      cases hs'
      rw [hm] at hm'
      cases hm'
  | evaluate => cases h

theorem Linked.follows (h : Linked w answers event reaction acts) {i : Nat} {a b : Act}
    (ha : acts[i]? = some a) (hb : acts[i + 1]? = some b) : a.Follows w answers event reaction b := by
  obtain ⟨hi, rfl⟩ := List.getElem?_eq_some_iff.1 hb
  obtain ⟨hi', rfl⟩ := List.getElem?_eq_some_iff.1 ha
  exact List.isChain_iff_getElem.1 h.1 i hi

theorem Linked.entry (h : Linked w answers event reaction acts) {a : Act}
    (ha : acts[0]? = some a) : a = .evaluation w event none reaction.script :=
  h.2 a (by rwa [List.head?_eq_getElem?])

/-- Evaluations and dispatches alternate. -/
theorem Linked.alternate (h : Linked w answers event reaction acts) :
    ∀ {i : Nat} {a : Act}, acts[i]? = some a → (a.isEvaluation = true ↔ i % 2 = 0)
  | 0, a, ha => by rw [h.entry ha]; simp [Act.evaluation, Act.isEvaluation]
  | i + 1, b, hb => by
    obtain ⟨a, ha⟩ : ∃ a, acts[i]? = some a := by
      obtain ⟨hi, -⟩ := List.getElem?_eq_some_iff.1 hb
      exact ⟨_, List.getElem?_eq_getElem (Nat.lt_of_succ_lt hi)⟩
    have ih := h.alternate ha
    cases h.follows ha hb with
    | dispatch =>
      have heven : i % 2 = 0 := ih.1 rfl
      exact ⟨nofun, fun h => by omega⟩
    | evaluate =>
      have hodd : i % 2 ≠ 0 := fun h => nomatch ih.2 h
      exact ⟨fun _ => by omega, fun _ => rfl⟩

theorem getLast?_or_next {i : Nat} {a : Act} (ha : acts[i]? = some a) :
    acts.getLast? = some a ∨ ∃ b, acts[i + 1]? = some b := by
  cases hb : acts[i + 1]? with
  | some b => exact Or.inr ⟨b, rfl⟩
  | none =>
    obtain ⟨hi, -⟩ := List.getElem?_eq_some_iff.1 ha
    have hlen : acts.length - 1 = i := by
      have := List.getElem?_eq_none_iff.1 hb
      omega
    exact Or.inl (by rw [List.getLast?_eq_getElem?, hlen, ha])

/-! ## Ends -/

/-- The first script has stopped at once. -/
def StoppedAtOnce (event : Event) (reaction : Reaction) (acts : List Act) : Prop :=
  acts[0]? = some (.evaluated event.data none reaction.script (.ok .stop))

/-- The last dispatch has succeeded, and its step has no script, or one that
    has stopped. -/
def CameToEnd (event : Event) (reaction : Reaction) (acts : List Act) : Prop :=
  ∃ i n module action d o s, acts[i]? = some (.dispatched n module action d (.ok o)) ∧
    (∀ j b, i < j → acts[j]? = some b → b.isEvaluation = true) ∧ reaction.step? n = some s ∧
    (s.script = "" ∨ acts[i + 1]? = some (.evaluated event.data (some o) s.script (.ok .stop)))

/-- What stops at once does nothing else. -/
theorem StoppedAtOnce.getLast? (hl : Linked w answers event reaction acts)
    (h : StoppedAtOnce event reaction acts) :
    acts.getLast? = some (.evaluated event.data none reaction.script (.ok .stop)) := by
  rcases getLast?_or_next h with hlast | ⟨b, hb⟩
  · exact hlast
  · exact absurd (hl.follows h hb) (not_follows_stop b)

/-- What came to its end has done nothing after that. -/
theorem CameToEnd.getLast? (hl : Linked w answers event reaction acts)
    (h : CameToEnd event reaction acts) :
    (∃ n module action d o s, acts.getLast? = some (.dispatched n module action d (.ok o)) ∧
        reaction.step? n = some s ∧ s.script = "") ∨
      ∃ o script, acts.getLast? = some (.evaluated event.data (some o) script (.ok .stop)) := by
  obtain ⟨i, n, module, action, d, o, s, ha, -, hs, hscript | hstop⟩ := h
  · rcases getLast?_or_next ha with hlast | ⟨b, hb⟩
    · exact Or.inl ⟨n, module, action, d, o, s, hlast, hs, hscript⟩
    · exact absurd (hl.follows ha hb) (not_follows_empty hs hscript b)
  · rcases getLast?_or_next hstop with hlast | ⟨b, hb⟩
    · exact Or.inr ⟨o, s.script, hlast⟩
    · exact absurd (hl.follows hstop hb) (not_follows_stop b)

theorem cameToEnd_finished {n module action : String} {d o : Payload} {s : ActionStep}
    (hs : reaction.step? n = some s) (hscript : s.script = "") :
    CameToEnd event reaction (acts ++ [.dispatched n module action d (.ok o)]) := by
  refine ⟨acts.length, n, module, action, d, o, s, by simp, fun j b hj hb => ?_, hs, Or.inl hscript⟩
  rw [List.getElem?_eq_none (by simp; omega)] at hb
  cases hb

theorem cameToEnd_stopped {n module action : String} {d o : Payload} {s : ActionStep}
    (hs : reaction.step? n = some s) :
    CameToEnd event reaction (acts ++ [.dispatched n module action d (.ok o)] ++
      [.evaluated event.data (some o) s.script (.ok .stop)]) := by
  refine ⟨acts.length, n, module, action, d, o, s, by simp, fun j b hj hb => ?_, hs,
    Or.inr (by simp)⟩
  obtain ⟨hlt, rfl⟩ := List.getElem?_eq_some_iff.1 hb
  have hlen : j = acts.length + 1 := by simp at hlt; omega
  subst hlen
  simp [Act.isEvaluation]

/-- How a run has ended. -/
theorem Stage.status (hl : Linked w answers event reaction acts) {state : State}
    {e : Option PipelineError} (h : Stage w event reaction acts state (.ended e)) :
    (e = none ∧ state = .notLaunched ∧ StoppedAtOnce event reaction acts ∧
        ¬ CameToEnd event reaction acts) ∨
      (e = none ∧ state = .done ∧ ¬ StoppedAtOnce event reaction acts ∧
        CameToEnd event reaction acts) ∨
      (e.isSome ∧ ¬ StoppedAtOnce event reaction acts ∧ ¬ CameToEnd event reaction acts) := by
  cases h with
  | notLaunched =>
    refine Or.inl ⟨rfl, rfl, rfl, fun h => ?_⟩
    rcases h.getLast? hl with ⟨n, module, action, d, o, s, hlast, -⟩ | ⟨o, script, hlast⟩ <;>
      cases hlast
  | finished hs hscript =>
    refine Or.inr (Or.inl ⟨rfl, rfl, fun h => ?_, cameToEnd_finished hs hscript⟩)
    have hlast := h.getLast? hl
    rw [List.getLast?_concat] at hlast
    cases hlast
  | stopped hs hscript =>
    refine Or.inr (Or.inl ⟨rfl, rfl, fun h => ?_, cameToEnd_stopped hs⟩)
    have hlast := h.getLast? hl
    rw [List.getLast?_concat] at hlast
    cases hlast
  | failed hfails =>
    refine Or.inr (Or.inr ⟨rfl, fun h => ?_, fun h => ?_⟩)
    · have hlast := h.getLast? hl
      rw [List.getLast?_concat] at hlast
      cases hlast
      cases hfails
    · rcases h.getLast? hl with ⟨n, module, action, d, o, s, hlast, -⟩ | ⟨o, script, hlast⟩
      · rw [List.getLast?_concat] at hlast
        cases hlast
        cases hfails
      · rw [List.getLast?_concat] at hlast
        cases hlast
        cases hfails

/-- Nothing follows the last act of a run that has ended. -/
theorem Stage.last {state : State} {e : Option PipelineError}
    (h : Stage w event reaction acts state (.ended e)) :
    ∃ a, acts.getLast? = some a ∧
      ∀ answers b, ¬ a.Follows w answers event reaction b := by
  cases h with
  | notLaunched => exact ⟨_, rfl, fun _ => not_follows_stop⟩
  | finished hs hscript =>
    exact ⟨_, List.getLast?_concat, fun _ => not_follows_empty hs hscript⟩
  | stopped => exact ⟨_, List.getLast?_concat, fun _ => not_follows_stop⟩
  | failed hfails => exact ⟨_, List.getLast?_concat, fun _ => not_follows_of_fails hfails⟩

/-! ## Traces -/

/-- What the acts of a run are that has ended, and what has come of it. -/
structure Traced (w : Surroundings) (answers : Answers) (event : Event) (reaction : Reaction)
    (acts : List Act) (o : Outcome) : Prop where
  /-- it begins with the evaluation of the reaction's script -/
  entry : acts[0]? = some (.evaluated event.data none reaction.script
    (w.evaluate event.data none reaction.script))
  /-- evaluations and dispatches alternate -/
  alternate : ∀ i a, acts[i]? = some a → (a.isEvaluation = true ↔ i % 2 = 0)
  /-- the step that a script picks is dispatched on what the script gives -/
  continued : ∀ i data prior script n d,
    acts[i]? = some (.evaluated data prior script (.ok (.continue_ n d))) →
    ∀ s m, reaction.step? n = some s → w.actions.lookup s.module = .ok m →
    ∃ r, answers m s.action d r ∧ acts[i + 1]? = some (.dispatched n s.module s.action d r)
  /-- the script of a step is evaluated on the output of its action -/
  followedUp : ∀ i n module action d out,
    acts[i]? = some (.dispatched n module action d (.ok out)) →
    ∀ s, reaction.step? n = some s → s.script ≠ "" →
    acts[i + 1]? = some (.evaluated event.data (some out) s.script
      (w.evaluate event.data (some out) s.script))
  /-- there is nothing else -/
  nothingElse : ∀ i b, acts[i + 1]? = some b →
    ∃ a, acts[i]? = some a ∧ a.Follows w answers event reaction b
  steps : o.steps = acts.filterMap Act.succeeded?
  notLaunched : o.status = .notLaunched ↔ StoppedAtOnce event reaction acts
  done : o.status = .done ↔ CameToEnd event reaction acts
  error : o.status = .error ↔ o.error?.isSome

theorem outcome_ended {p : Pipeline} {o : Outcome} (h : p.outcome? = some o) :
    ∃ e, p.phase = .ended e ∧ o.steps = p.completed ∧ o.error?.isSome = e.isSome ∧
      o.status = if e.isSome then .error else p.state.status?.getD .error := by
  unfold outcome? at h
  split at h
  · rename_i e he
    cases h
    exact ⟨e, he, rfl, by cases e <;> rfl, rfl⟩
  · cases h

theorem traced_of_runs {p : Pipeline} {o : Outcome}
    (h : Runs w answers (.new event reaction) acts p) (ho : p.outcome? = some o) :
    Traced w answers event reaction acts o := by
  obtain ⟨-, -, hcompleted, hl, hstage⟩ := Tracked.runs h
  obtain ⟨e, he, hsteps, herror, hstatus⟩ := outcome_ended ho
  rw [he] at hstage
  obtain ⟨z, hz, hfinal⟩ := hstage.last
  -- an act after which something may come is not the last one
  have hnext {i : Nat} {a : Act} (ha : acts[i]? = some a) {answers' : Answers} {b : Act}
      (hab : a.Follows w answers' event reaction b) :
      ∃ c, acts[i + 1]? = some c ∧ a.Follows w answers event reaction c := by
    rcases getLast?_or_next ha with hlast | ⟨c, hc⟩
    · rw [hz] at hlast
      cases hlast
      exact absurd hab (hfinal answers' b)
    · exact ⟨c, hc, hl.follows ha hc⟩
  have hends := hstage.status hl
  refine ⟨?_, fun i a => hl.alternate, ?_, ?_, ?_, hsteps.trans hcompleted, ?_, ?_, ?_⟩
  · cases h0 : acts[0]? with
    | none =>
      rw [List.getElem?_eq_none_iff, Nat.le_zero, List.length_eq_zero_iff] at h0
      rw [h0] at hz
      cases hz
    | some a => rw [hl.entry h0]; rfl
  · intro i data prior script n d ha s m hs hm
    obtain ⟨c, hc, hac⟩ := hnext ha
      (@Act.Follows.dispatch w (fun _ _ _ _ => True) event reaction _ _ _ _ _ _ _ (.ok []) hs hm trivial)
    cases hac with
    | dispatch hs' hm' hr =>
      rw [hs] at hs'
      cases hs'
      rw [hm] at hm'
      cases hm'
      exact ⟨_, hr, hc⟩
  · intro i n module action d out ha s hs hne
    obtain ⟨c, hc, hac⟩ := hnext ha (@Act.Follows.evaluate w answers event reaction _ _ _ _ _ _ hs hne)
    cases hac with
    | evaluate hs' _ =>
      rw [hs] at hs'
      cases hs'
      exact hc
  · intro i b hb
    obtain ⟨hi, -⟩ := List.getElem?_eq_some_iff.1 hb
    have ha := List.getElem?_eq_getElem (Nat.lt_of_succ_lt hi)
    exact ⟨_, ha, hl.follows ha hb⟩
  · rcases hends with ⟨rfl, hstate, hs, -⟩ | ⟨rfl, hstate, hs, -⟩ | ⟨hsome, hs, -⟩
    · simp [hstatus, hstate, State.status?, hs]
    · simp [hstatus, hstate, State.status?, hs]
    · simp [hstatus, hsome, hs]
  · rcases hends with ⟨rfl, hstate, -, hd⟩ | ⟨rfl, hstate, -, hd⟩ | ⟨hsome, -, hd⟩
    · simp [hstatus, hstate, State.status?, hd]
    · simp [hstatus, hstate, State.status?, hd]
    · simp [hstatus, hsome, hd]
  · rcases hends with ⟨rfl, hstate, -⟩ | ⟨rfl, hstate, -⟩ | ⟨hsome, -⟩
    · simp [hstatus, hstate, State.status?, herror]
    · simp [hstatus, hstate, State.status?, herror]
    · simp [hstatus, hsome, herror]

/-- **The trace of a run** that has ended: of any run, whatever the modules
    answer, and of `Pipeline.run`, however long it takes. -/
theorem run_traced (w : Surroundings) (event : Event) (reaction : Reaction) :
    (∀ answers acts p o, Runs w answers (.new event reaction) acts p → p.outcome? = some o →
        Traced w answers event reaction acts o) ∧
      ∀ fuel o, ((new event reaction).run w fuel).1.outcome? = some o →
        Traced w ActionModule.answers event reaction ((new event reaction).run w fuel).2 o := by
  refine ⟨fun answers acts p o => traced_of_runs, fun fuel o ho => ?_⟩
  have hrun := runs_run (w := w) fuel (.refl (p := new event reaction))
  rw [List.nil_append] at hrun
  exact traced_of_runs hrun ho

/-- A bell that is rung twice: its script asks for it again, on what the first
    ring gave. -/
theorem run_traced_bell :
    let ring : ActionModule := ⟨[], fun _ => .ok (), fun _ input => .ok (("n", .nat 1) :: input)⟩
    let bell : Reaction := ⟨"bell", "door", "ring", [("ring", ⟨"ring", "chime", "ring", "again"⟩)]⟩
    let evaluate : Evaluator := fun _ prior _ =>
      .ok (if prior.any (·.length == 2) then .stop else .continue_ "ring" (prior.getD []))
    let w : Surroundings := ⟨evaluate, (Registry.actions.register "chime" ring).2⟩
    let run := (new ⟨"door", []⟩ bell).run w 10
    ∃ o, run.1.outcome? = some o ∧ o.status = .done ∧ o.steps = ["ring", "ring"] ∧
      Traced w ActionModule.answers ⟨"door", []⟩ bell run.2 o := by
  intro ring bell evaluate w run
  have ho : run.1.outcome? = some ⟨"door", "bell", .done, ["ring", "ring"], none⟩ := by
    decide +kernel
  exact ⟨_, ho, rfl, rfl, (run_traced w ⟨"door", []⟩ bell).2 10 _ ho⟩

end Pipeline

end Reactor
