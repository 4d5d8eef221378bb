/-
  The states that a pipeline goes through.

  One step may take a pipeline through more than one state: a step of the
  reaction whose module is missing is entered, and then the pipeline fails.

  * `enterStates`, `goToStates`, `decisionStates` and `outputStates` are the
    states that a pipeline goes through when it changes as their names say, and
    `runStates` those of a run;
  * `Passes` are the runs of a pipeline with the states it has gone through;
  * `Goes` says which states may come after a state, `Takes` that a change goes
    through such states and comes to a proper end;
  * `Lived` is what holds of the life of a pipeline at any time, and
    `lives_properly`: it does.
-/
import Reactor.Proofs.Engine.Trace
import Reactor.Proofs.Fields

namespace Reactor

theorem Act.eq_of_succeeded? {a : Act} {n : String} (h : a.succeeded? = some n) :
    ∃ module action d out, a = .dispatched n module action d (.ok out) := by
  cases a with
  | evaluated => cases h
  | dispatched step module action d r =>
    cases r with
    | error => cases h
    | ok out => cases h; exact ⟨module, action, d, out, rfl⟩

/-! ## States in order -/

namespace State

/-- A pipeline in this state has begun and not ended. -/
def UnderWay (s : State) : Prop := s = .awaitingScript ∨ ∃ k, s = .running k

/-- States that come after a state, each allowed after the one before, up to a
    last one; only steps of the reaction run, and what is new awaits its script. -/
inductive Goes (reaction : Reaction) : State → List State → State → Prop
  | stay (s : State) : Goes reaction s [] s
  | on {s t u : State} {ts : List State} :
      s.allows t = true → (∀ k, t = .running k → (reaction.step? k).isSome) →
      (s = .init → t = .awaitingScript) → Goes reaction t ts u → Goes reaction s (t :: ts) u

variable {reaction : Reaction} {s t u : State} {ts us : List State}

theorem UnderWay.not_terminal (h : s.UnderWay) : s.isTerminal = false := by
  rcases h with rfl | ⟨k, rfl⟩ <;> rfl

theorem UnderWay.allows_running (h : s.UnderWay) (k : String) : s.allows (.running k) = true := by
  rcases h with rfl | ⟨j, rfl⟩ <;> rfl

theorem UnderWay.ne_init (h : s.UnderWay) : s ≠ .init := by
  rcases h with rfl | ⟨k, rfl⟩ <;> exact nofun

theorem allows_error (h : s.isTerminal = false) : s.allows .error = true := by
  cases s with
  | init | awaitingScript | running => rfl
  | _ => cases h

theorem not_allows_of_terminal (h : s.isTerminal = true) (t : State) : s.allows t = false := by
  cases s with
  | done | notLaunched | error => cases t <;> rfl
  | _ => cases h

theorem Goes.append (h : Goes reaction s ts t) (h' : Goes reaction t us u) :
    Goes reaction s (ts ++ us) u := by
  induction h with
  | stay => exact h'
  | on hallows hstep hinit _ ih => exact .on hallows hstep hinit (ih h')

theorem Goes.getLast? (h : Goes reaction s ts t) : (s :: ts).getLast? = some t := by
  induction h with
  | stay => rfl
  | on _ _ _ _ ih => rw [List.getLast?_cons_cons, ih]

theorem Goes.isChain (h : Goes reaction s ts t) :
    (s :: ts).IsChain fun s t => s.transition t = .ok t := by
  induction h with
  | stay => exact .singleton _
  | on hallows _ _ _ ih => exact .cons_cons (if_pos hallows) ih

theorem status?_eq_done (h : s.status? = some .done) : s = .done := by
  cases s with
  | done => rfl
  | _ => cases h

theorem status?_eq_error (h : s.status? = some .error) : s = .error := by
  cases s with
  | error => rfl
  | _ => cases h

/-! ## What comes after what -/

/-- A pipeline that has ended stays as it is. -/
theorem Goes.of_terminal (hs : s.isTerminal = true) (h : Goes reaction s ts t) : ts = [] := by
  cases h with
  | stay => rfl
  | on hallows => rw [not_allows_of_terminal hs] at hallows; cases hallows

/-- States of running steps, and at most one more that is terminal. -/
structure Rest (reaction : Reaction) (ks : List String) (ends : List State) : Prop where
  steps : ∀ k ∈ ks, (reaction.step? k).isSome
  once : ends.length ≤ 1
  terminal : ∀ s ∈ ends, s.isTerminal = true

theorem Rest.none : Rest reaction [] [] := ⟨nofun, Nat.zero_le 1, nofun⟩

theorem Rest.single (hs : s.isTerminal = true) : Rest reaction [] [s] :=
  ⟨nofun, Nat.le_refl 1, fun t ht => by rwa [List.mem_singleton.1 ht]⟩

theorem Rest.cons {ks : List String} {ends : List State} (h : Rest reaction ks ends) {k : String}
    (hk : (reaction.step? k).isSome) : Rest reaction (k :: ks) ends := by
  refine ⟨fun j hj => ?_, h.once, h.terminal⟩
  rcases List.mem_cons.1 hj with rfl | hj
  · exact hk
  · exact h.steps j hj

/-- After a running step come running steps, and then an end other than not
    having been launched. -/
theorem Goes.of_running {k : String} (h : Goes reaction (.running k) ts t) :
    ∃ ks ends, ts = ks.map .running ++ ends ∧ Rest reaction ks ends ∧ .notLaunched ∉ ends := by
  generalize hs : State.running k = s at h
  induction h generalizing k with
  | stay => exact ⟨[], [], rfl, .none, nofun⟩
  | @on s t u ts hallows hstep _ hrest ih =>
    subst hs
    cases t with
    | running j =>
      obtain ⟨ks, ends, rfl, hks, hends⟩ := ih rfl
      exact ⟨j :: ks, ends, rfl, hks.cons (hstep j rfl), hends⟩
    | done => exact ⟨[], [.done], by rw [hrest.of_terminal rfl]; rfl, .single rfl, by simp⟩
    | error => exact ⟨[], [.error], by rw [hrest.of_terminal rfl]; rfl, .single rfl, by simp⟩
    | _ => cases hallows

/-- After the first script come running steps and an end, or not having been
    launched at once. -/
theorem Goes.of_awaitingScript (h : Goes reaction .awaitingScript ts t) :
    ∃ ks ends, ts = ks.map .running ++ ends ∧ Rest reaction ks ends ∧
      (.notLaunched ∈ ends → ks = []) := by
  cases h with
  | stay => exact ⟨[], [], rfl, .none, fun _ => rfl⟩
  | @on _ t _ ts hallows hstep _ hrest =>
    cases t with
    | running j =>
      obtain ⟨ks, ends, rfl, hks, hends⟩ := hrest.of_running
      exact ⟨j :: ks, ends, rfl, hks.cons (hstep j rfl), fun h => absurd h hends⟩
    | notLaunched =>
      exact ⟨[], [.notLaunched], by rw [hrest.of_terminal rfl]; rfl, .single rfl, fun _ => rfl⟩
    | error =>
      exact ⟨[], [.error], by rw [hrest.of_terminal rfl]; rfl, .single rfl, fun _ => rfl⟩
    | _ => cases hallows

/-- What is new awaits its first script. -/
theorem Goes.of_init (h : Goes reaction .init ts t) :
    ts = [] ∨ ∃ ks ends, ts = .awaitingScript :: (ks.map .running ++ ends) ∧
      Rest reaction ks ends ∧ (.notLaunched ∈ ends → ks = []) := by
  cases h with
  | stay => exact .inl rfl
  | on _ _ hinit hrest =>
    obtain rfl := hinit rfl
    obtain ⟨ks, ends, rfl, hends⟩ := hrest.of_awaitingScript
    exact .inr ⟨ks, ends, rfl, hends⟩

end State

namespace Pipeline

open State (Goes)

/-! ## States of a change -/

/-- The states that a pipeline goes through when it fails. -/
def failStates (p : Pipeline) : List State := if p.state.isTerminal then [] else [.error]

/-- The states that a pipeline goes through when it goes to a state. -/
def enterStates (p : Pipeline) (target : State) : List State :=
  match p.state.transition target with
  | .ok s => [s]
  | .error _ => p.failStates

/-- The states that a pipeline goes through when it goes on with a step: one
    without a module is entered before the pipeline fails. -/
def goToStates (p : Pipeline) (actions : Registry ActionModule) (next : String) : List State :=
  match p.reaction.step? next with
  | none => p.failStates
  | some s =>
    match p.state.transition (.running next), actions.lookup s.module with
    | .error _, _ => p.failStates
    | .ok state, .error _ => state :: { p with state }.failStates
    | .ok state, .ok _ => [state]

/-- The states that a pipeline goes through when a script has decided. -/
def decisionStates (p : Pipeline) (actions : Registry ActionModule) (isFirst : Bool)
    (d : Except ScriptError Decision) : List State :=
  match d with
  | .error _ => p.failStates
  | .ok .stop => p.enterStates (if isFirst then .notLaunched else .done)
  | .ok (.continue_ next _) => p.goToStates actions next

/-- The states that a pipeline goes through when the action of a step has ended. -/
def outputStates (p : Pipeline) (step : String) (r : Except ActionError Payload) : List State :=
  match r with
  | .error _ => p.failStates
  | .ok _ =>
    match p.reaction.step? step with
    | some s => if s.script = "" then p.enterStates .done else []
    | none => p.failStates

/-- The states that one step takes a pipeline through. -/
def stepStates (w : Surroundings) (p : Pipeline) : List State :=
  match p.phase with
  | .start => p.enterStates .awaitingScript
  | .evaluate prior script =>
    p.decisionStates w.actions prior.isNone (w.evaluate p.event.data prior script)
  | .dispatch step m input => p.outputStates step (m.dispatch (p.target step).2 input)
  | .ended _ => []

/-- The states that a run takes a pipeline through, as long as the fuel lasts. -/
def runStates (w : Surroundings) : Nat → Pipeline → List State
  | 0, _ => []
  | fuel + 1, p => if p.isEnded then [] else p.stepStates w ++ runStates w fuel (p.step w).1

/-- What a script engine may decide on the data of an event, the output of the step
    before and a script. -/
abbrev Verdicts :=
  Payload → Option Payload → String → Except ScriptError Decision → Prop

/-- The verdicts of an evaluator. -/
def verdictsOf (evaluate : Evaluator) : Verdicts := fun data prior script d =>
  d = evaluate data prior script

/-- A step of a pipeline, whatever engine and modules answer, with the states that
    it takes the pipeline through and what it did. -/
inductive Proceeds (actions : Registry ActionModule) (verdicts : Verdicts) (answers : Answers)
    (p : Pipeline) : List State → Option Act → Pipeline → Prop
  | start : p.phase = .start →
      Proceeds actions verdicts answers p (p.enterStates .awaitingScript) none p.begin
  | evaluate {prior : Option Payload} {script : String} {d : Except ScriptError Decision} :
      p.phase = .evaluate prior script → verdicts p.event.data prior script d →
      Proceeds actions verdicts answers p (p.decisionStates actions prior.isNone d)
        (some (.evaluated p.event.data prior script d)) (p.onDecision actions prior.isNone d)
  | dispatch {step : String} {m : ActionModule} {input : Payload}
      {r : Except ActionError Payload} :
      p.phase = .dispatch step m input → answers m (p.target step).2 input r →
      Proceeds actions verdicts answers p (p.outputStates step r)
        (some (.dispatched step (p.target step).1 (p.target step).2 input r)) (p.onOutput step r)

/-- The runs of a pipeline, with the states that it has gone through and all that
    it has done. -/
inductive Passes (actions : Registry ActionModule) (verdicts : Verdicts) (answers : Answers)
    (event : Event) (reaction : Reaction) : List State → List Act → Pipeline → Prop
  | new : Passes actions verdicts answers event reaction [.init] [] (.new event reaction)
  | step {states ts : List State} {acts : List Act} {a : Option Act} {p q : Pipeline} :
      Passes actions verdicts answers event reaction states acts p →
      Proceeds actions verdicts answers p ts a q →
      Passes actions verdicts answers event reaction (states ++ ts) (acts ++ a.toList) q

section

variable {w : Surroundings} {event : Event} {reaction : Reaction}

/-- A step by an evaluator and modules that go by what they are given. -/
theorem proceeds_step {p : Pipeline} (h : p.isEnded = false) :
    Proceeds w.actions (verdictsOf w.evaluate) ActionModule.answers p (p.stepStates w)
      (p.step w).2 (p.step w).1 := by
  rw [stepStates, Pipeline.step]
  cases hp : p.phase with
  | start => exact .start hp
  | evaluate prior script => exact .evaluate hp rfl
  | dispatch step m input => exact .dispatch hp rfl
  | ended e => rw [isEnded, hp] at h; cases h

/-- `Pipeline.run` goes through the states of a run. -/
theorem passes_run : ∀ (fuel : Nat) {states : List State} {acts : List Act} {p : Pipeline},
    Passes w.actions (verdictsOf w.evaluate) ActionModule.answers event reaction states acts p →
    Passes w.actions (verdictsOf w.evaluate) ActionModule.answers event reaction
      (states ++ p.runStates w fuel) (acts ++ (p.run w fuel).2) (p.run w fuel).1
  | 0, states, acts, p, h => by rwa [run, runStates, List.append_nil, List.append_nil]
  | fuel + 1, states, acts, p, h => by
    rw [run, runStates]
    cases hp : p.isEnded with
    | true => rwa [if_pos rfl, if_pos rfl, List.append_nil, List.append_nil]
    | false =>
      have := passes_run fuel (h.step (proceeds_step hp))
      rwa [List.append_assoc, List.append_assoc] at this

end

/-! ## Every change -/

/-- A pipeline is in the state that goes with what it does next; where it has come
    to its end, or goes by what a step has given, some step has succeeded. -/
structure Ready (p : Pipeline) : Prop where
  done : p.state = .done → p.completed ≠ []
  due : match p.phase with
    | .start => p.state = .init
    | .evaluate none _ => p.state = .awaitingScript
    | .evaluate (some _) _ => (∃ k, p.state = .running k) ∧ p.completed ≠ []
    | .dispatch n _ _ => p.state = .running n ∧ ∃ s, p.reaction.step? n = some s
    | .ended _ => True

/-- A change of a pipeline goes through states in order, ends the pipeline in a
    terminal state only, and lets it fail for a reason other than a state that
    may not follow. -/
structure Takes (reaction : Reaction) (p : Pipeline) (ts : List State) (q : Pipeline) : Prop where
  goes : Goes reaction p.state ts q.state
  ended : q.isEnded = q.state.isTerminal
  failed : ∀ e, q.phase = .ended (some e) → q.state = .error ∧ ∀ a b, e ≠ .invalidTransition a b
  well : q.phase = .ended none → q.state ≠ .error
  ready : q.Ready

variable {actions : Registry ActionModule} {verdicts : Verdicts} {answers : Answers}
  {event : Event} {reaction : Reaction} {states : List State} {acts : List Act} {p : Pipeline}

theorem takes_fail (hstate : p.state.UnderWay) {e : PipelineError}
    (he : ∀ a b, e ≠ .invalidTransition a b) : Takes reaction p p.failStates (p.fail e) := by
  have hlive := hstate.not_terminal
  have herror : (p.fail e).state = .error := by
    simp only [fail, hlive, Bool.false_eq_true, if_false]
  have hstates : p.failStates = [.error] := by
    simp only [failStates, hlive, Bool.false_eq_true, if_false]
  refine ⟨?_, ?_, fun e' he' => ⟨herror, ?_⟩, nofun, ⟨fun hdone => ?_, trivial⟩⟩
  · rw [hstates, herror]
    exact .on (State.allows_error hlive) nofun (fun h => absurd h hstate.ne_init) (.stay _)
  · rw [herror]; rfl
  · cases he'
    exact he
  · rw [herror] at hdone
    cases hdone

theorem takes_enter {target : State} {phase : Phase} (hallows : p.state.allows target = true)
    (hstep : ∀ k, target ≠ .running k) (hinit : p.state = .init → target = .awaitingScript)
    (hended : ({ p with phase } : Pipeline).isEnded = target.isTerminal)
    (hfails : ∀ e, phase ≠ .ended (some e)) (hwell : target ≠ .error)
    (hready : ({ p with state := target, phase } : Pipeline).Ready) :
    Takes reaction p (p.enterStates target) (p.enter target phase) := by
  have htransition : p.state.transition target = .ok target := if_pos hallows
  simp only [enterStates, enter, htransition]
  exact ⟨.on hallows (fun k hk => absurd hk (hstep k)) hinit (.stay _), hended,
    fun e he => absurd he (hfails e), fun _ => hwell, hready⟩

theorem takes_goTo (hstate : p.state.UnderWay) (n : String) (d : Payload) :
    Takes p.reaction p (p.goToStates actions n) (p.goTo actions n d) := by
  have hallows := hstate.allows_running n
  have htransition : p.state.transition (.running n) = .ok (.running n) := if_pos hallows
  unfold goToStates goTo
  rw [htransition]
  cases hs : p.reaction.step? n with
  | none => exact takes_fail hstate nofun
  | some s =>
    have hstep : ∀ k, State.running n = .running k → (p.reaction.step? k).isSome := by
      rintro k ⟨⟩
      rw [hs]
      rfl
    have hinit : p.state = .init → State.running n = .awaitingScript :=
      fun h => absurd h hstate.ne_init
    dsimp only
    cases actions.lookup s.module with
    | error e =>
      -- the step is entered before its module is found missing
      have hfail : Takes p.reaction { p with state := .running n } _ _ :=
        takes_fail (.inr ⟨n, rfl⟩) (e := .registry e) nofun
      obtain ⟨hgoes, hended, hfailed, hwell, hready⟩ := hfail
      exact ⟨.on hallows hstep hinit hgoes, hended, hfailed, hwell, hready⟩
    | ok m => exact ⟨.on hallows hstep hinit (.stay _), rfl, nofun, nofun, ⟨nofun, rfl, s, hs⟩⟩

/-- The first script leads on, or the pipeline is not launched. -/
theorem takes_firstDecision (hstate : p.state = .awaitingScript)
    (d : Except ScriptError Decision) :
    Takes p.reaction p (p.decisionStates actions true d) (p.onDecision actions true d) := by
  have hway : p.state.UnderWay := .inl hstate
  match d with
  | .error e => exact takes_fail hway nofun
  | .ok (.continue_ n d) => exact takes_goTo hway n d
  | .ok .stop =>
    exact takes_enter (by rw [hstate]; rfl) nofun (fun h => absurd h hway.ne_init) rfl nofun nofun
      ⟨nofun, trivial⟩

/-- The script of a step leads on, or the pipeline is done. -/
theorem takes_nextDecision {k : String} (hstate : p.state = .running k)
    (hcompleted : p.completed ≠ []) (d : Except ScriptError Decision) :
    Takes p.reaction p (p.decisionStates actions false d) (p.onDecision actions false d) := by
  have hway : p.state.UnderWay := .inr ⟨k, hstate⟩
  match d with
  | .error e => exact takes_fail hway nofun
  | .ok (.continue_ n d) => exact takes_goTo hway n d
  | .ok .stop =>
    exact takes_enter (by rw [hstate]; rfl) nofun (fun h => absurd h hway.ne_init) rfl nofun nofun
      ⟨fun _ => hcompleted, trivial⟩

theorem takes_onOutput {n : String} {s : ActionStep} (hs : p.reaction.step? n = some s)
    (hstate : p.state = .running n) (r : Except ActionError Payload) :
    Takes p.reaction p (p.outputStates n r) (p.onOutput n r) := by
  have hway : p.state.UnderWay := .inr ⟨n, hstate⟩
  cases r with
  | error e => exact takes_fail hway nofun
  | ok o =>
    have hcompleted : p.completed ++ [n] ≠ [] := by simp
    simp only [outputStates, onOutput_ok hs, hs]
    split
    · have hallows : p.state.allows .done = true := by rw [hstate]; rfl
      have hdone : Takes p.reaction { p with completed := p.completed ++ [n] } _
          (enter { p with completed := p.completed ++ [n] } .done (.ended none)) :=
        takes_enter hallows nofun (fun h => absurd h hway.ne_init) rfl nofun nofun
          ⟨fun _ => hcompleted, trivial⟩
      obtain ⟨hgoes, hended, hfailed, hwell, hready⟩ := hdone
      exact ⟨hgoes, hended, hfailed, hwell, hready⟩
    · exact ⟨.stay _, hway.not_terminal.symm, nofun, nofun,
        ⟨fun _ => hcompleted, ⟨n, hstate⟩, hcompleted⟩⟩

/-- **A step takes a pipeline through states in order.** -/
theorem Ready.proceeds (hready : p.Ready) {ts : List State} {a : Option Act} {q : Pipeline}
    (h : Proceeds actions verdicts answers p ts a q) : Takes p.reaction p ts q := by
  have hdue := hready.due
  cases h with
  | start hp =>
    rw [hp] at hdue
    have hstate : p.state = .init := hdue
    exact takes_enter (by rw [hstate]; rfl) nofun (fun _ => rfl) rfl nofun nofun ⟨nofun, rfl⟩
  | @evaluate prior script d hp hd =>
    rw [hp] at hdue
    cases prior with
    | none => exact takes_firstDecision hdue d
    | some o =>
      obtain ⟨⟨k, hstate⟩, hcompleted⟩ := hdue
      exact takes_nextDecision hstate hcompleted d
  | @dispatch n m input r hp hr =>
    rw [hp] at hdue
    obtain ⟨hstate, s, hs⟩ := hdue
    exact takes_onOutput hs hstate r

/-- What a step leaves as it is, and what it adds to the completed steps. -/
theorem Ready.frame (hready : p.Ready) {ts : List State} {a : Option Act} {q : Pipeline}
    (h : Proceeds actions verdicts answers p ts a q) :
    q.reaction = p.reaction ∧
      q.completed = p.completed ++ a.toList.filterMap Act.succeeded? := by
  have hdue := hready.due
  cases h with
  | start =>
    obtain ⟨-, hreaction, hcompleted⟩ :=
      same_enter p .awaitingScript (.evaluate none p.reaction.script)
    exact ⟨hreaction, hcompleted.trans (List.append_nil _).symm⟩
  | @evaluate prior script d =>
    obtain ⟨-, hreaction, hcompleted⟩ := same_onDecision p actions prior.isNone d
    exact ⟨hreaction, hcompleted.trans (List.append_nil _).symm⟩
  | @dispatch n m input r hp hr =>
    rw [hp] at hdue
    obtain ⟨-, s, hs⟩ := hdue
    exact (onOutput_frame hs r (p.target n).1 (p.target n).2 input).2

/-! ## Every run -/

theorem Takes.trans {q r : Pipeline} {ts us : List State} (h : Takes reaction p ts q)
    (h' : Takes reaction q us r) : Takes reaction p (ts ++ us) r :=
  ⟨h.goes.append h'.goes, h'.ended, h'.failed, h'.well, h'.ready⟩

/-- **A run takes a pipeline through states in order.** -/
theorem Passes.takes (h : Passes actions verdicts answers event reaction states acts p) :
    (∃ ts, states = .init :: ts ∧ Takes reaction (.new event reaction) ts p) ∧
      p.reaction = reaction ∧ p.completed = acts.filterMap Act.succeeded? := by
  induction h with
  | new => exact ⟨⟨[], rfl, .stay _, rfl, nofun, nofun, ⟨nofun, rfl⟩⟩, rfl, rfl⟩
  | @step states us acts a p q _ hstep ih =>
    obtain ⟨⟨ts, rfl, hts⟩, rfl, hcompleted⟩ := ih
    obtain ⟨hreaction, hadded⟩ := hts.ready.frame hstep
    refine ⟨⟨ts ++ us, rfl, hts.trans (hts.ready.proceeds hstep)⟩, hreaction, ?_⟩
    rw [hadded, hcompleted, List.filterMap_append]

/-- What holds of the life of a pipeline at any time. -/
structure Lived (actions : Registry ActionModule) (reaction : Reaction) (states : List State)
    (acts : List Act) (p : Pipeline) : Prop where
  /-- it is new, or has awaited its first script, then run steps of the reaction,
      and then perhaps ended -/
  course : states = [.init] ∨ ∃ (ks : List String) (ends : List State),
    states = .init :: .awaitingScript :: (ks.map .running ++ ends) ∧
      (∀ k ∈ ks, k ∈ reaction.steps.map (·.1)) ∧ ends.length ≤ 1 ∧
      ∀ s ∈ ends, s.isTerminal = true
  /-- the last state is the one that it is in -/
  present : states.getLast? = some p.state
  /-- each state may follow the one before -/
  allowed : states.IsChain fun s t => s.transition t = .ok t
  /-- it never fails because a state may not follow -/
  valid : ∀ a b, p.phase ≠ .ended (some (.invalidTransition a b))
  /-- after its end it does nothing -/
  finished : p.state.isTerminal = true →
    ∀ verdicts answers ts a q, ¬ Proceeds actions verdicts answers p ts a q
  /-- a pipeline that was not launched has run no step -/
  notLaunched : .notLaunched ∈ states → ∀ k, .running k ∉ states
  /-- what has come of it is what its state says -/
  status : ∀ o, p.outcome? = some o → p.state.status? = some o.status
  error : ∀ o, p.outcome? = some o → (o.error?.isSome ↔ o.status = .error)
  /-- what is done has succeeded in the last of the steps listed -/
  done : ∀ o, p.outcome? = some o → o.status = .done →
    ∃ n module action d out, .dispatched n module action d (.ok out) ∈ acts ∧
      o.steps.getLast? = some n

theorem not_proceeds_of_isEnded (h : p.isEnded = true) (ts : List State) (a : Option Act)
    (q : Pipeline) : ¬ Proceeds actions verdicts answers p ts a q := by
  intro hstep
  cases hstep with
  | start hp | evaluate hp | dispatch hp =>
    rw [isEnded, hp] at h
    cases h

/-- What has come of a pipeline that has ended well is what its state says. -/
theorem Takes.status {q : Pipeline} {ts : List State} (h : Takes reaction p ts q) {o : Outcome}
    (ho : q.outcome? = some o) :
    q.state.status? = some o.status ∧ (o.error?.isSome ↔ o.status = .error) ∧
      o.steps = q.completed := by
  obtain ⟨e, he, hsteps, herror, hstatus⟩ := outcome_ended ho
  cases e with
  | some e =>
    have hstate := (h.failed e he).1
    rw [hstatus, herror, hstate]
    exact ⟨rfl, ⟨fun _ => rfl, fun _ => rfl⟩, hsteps⟩
  | none =>
    have hterminal : q.state.isTerminal = true := by rw [← h.ended, isEnded, he]
    obtain ⟨s, hs⟩ := Option.isSome_iff_exists.1 hterminal
    have hstatus : o.status = s := by rw [hstatus, hs]; rfl
    have herror' : o.status ≠ .error := by
      rintro hbad
      rw [hstatus] at hbad
      exact h.well he (State.status?_eq_error (hbad ▸ hs))
    refine ⟨by rw [hs, hstatus], ⟨fun h => ?_, fun h => absurd h herror'⟩, hsteps⟩
    rw [herror] at h
    cases h

theorem Passes.lived (h : Passes actions verdicts answers event reaction states acts p) :
    Lived actions reaction states acts p := by
  obtain ⟨⟨ts, rfl, htakes⟩, -, hcompleted⟩ := h.takes
  have hcourse := htakes.goes.of_init
  refine ⟨?_, htakes.goes.getLast?, htakes.goes.isChain,
    fun a b hab => (htakes.failed _ hab).2 a b rfl,
    fun hterminal _ _ => not_proceeds_of_isEnded (htakes.ended.trans hterminal),
    fun hmem k hk => ?_, fun o ho => (htakes.status ho).1, fun o ho => (htakes.status ho).2.1,
    fun o ho hdone => ?_⟩
  · rcases hcourse with rfl | ⟨ks, ends, rfl, hrest, -⟩
    · exact .inl rfl
    · refine .inr ⟨ks, ends, rfl, fun k hk => ?_, hrest.once, hrest.terminal⟩
      obtain ⟨s, hs⟩ := Option.isSome_iff_exists.1 (hrest.steps k hk)
      exact List.mem_map.2 ⟨_, Fields.mem_of_get? hs, rfl⟩
  · rcases hcourse with rfl | ⟨ks, ends, rfl, hrest, hnone⟩
    · simp at hk
    · obtain rfl := hnone (by simpa using hmem)
      have hkends : .running k ∈ ends := by simpa using hk
      have := hrest.terminal _ hkends
      cases this
  · obtain ⟨hstatus, -, hsteps⟩ := htakes.status ho
    rw [hdone] at hstatus
    obtain ⟨n, hn⟩ := Option.isSome_iff_exists.1
      (List.getLast?_isSome.2 (htakes.ready.done (State.status?_eq_done hstatus)))
    obtain ⟨a, ha, hsucceeded⟩ := List.mem_filterMap.1 (hcompleted ▸ List.mem_of_getLast? hn)
    obtain ⟨module, action, d, out, rfl⟩ := Act.eq_of_succeeded? hsucceeded
    exact ⟨n, module, action, d, out, ha, hsteps ▸ hn⟩

/-- **The life of a pipeline** is in order at any time of any run, whatever the
    script engine and the modules answer: in particular in `Pipeline.run`, however
    long it takes. -/
theorem lives_properly (actions : Registry ActionModule) (event : Event) (reaction : Reaction) :
    (∀ verdicts answers states acts p,
        Passes actions verdicts answers event reaction states acts p →
        Lived actions reaction states acts p) ∧
      ∀ evaluate fuel,
        let run := (new event reaction).run ⟨evaluate, actions⟩ fuel
        Lived actions reaction (.init :: (new event reaction).runStates ⟨evaluate, actions⟩ fuel)
          run.2 run.1 := by
  refine ⟨fun verdicts answers states acts p h => h.lived, fun evaluate fuel => ?_⟩
  have hnew : Passes actions (verdictsOf evaluate) ActionModule.answers event reaction [.init] []
      (new event reaction) := .new
  have hpasses := passes_run (w := ⟨evaluate, actions⟩) fuel hnew
  rw [List.nil_append] at hpasses
  exact hpasses.lived

/-- A bell that is rung before a horn without a module: the pipeline fails in the
    second step, after it has entered it. -/
theorem lives_properly_bell :
    let ring : ActionModule := ⟨[], fun _ => .ok (), fun _ input => .ok input⟩
    let bell : Reaction := ⟨"bell", "door", "ring",
      [("blow", ⟨"blow", "horn", "blow", ""⟩), ("ring", ⟨"ring", "chime", "ring", "blow"⟩)]⟩
    let evaluate : Evaluator := fun _ _ script => .ok (.continue_ script [])
    let actions := (Registry.actions.register "chime" ring).2
    let p := ((new ⟨"door", []⟩ bell).run ⟨evaluate, actions⟩ 10).1
    let states : List State :=
      [.init, .awaitingScript, .running "ring", .running "blow", .error]
    ∃ acts o, Passes actions (verdictsOf evaluate) ActionModule.answers ⟨"door", []⟩ bell states
        acts p ∧
      p.outcome? = some o ∧ o.status = .error ∧ o.steps = ["ring"] ∧
      Lived actions bell states acts p := by
  intro ring bell evaluate actions p states
  have hnew : Passes actions (verdictsOf evaluate) ActionModule.answers ⟨"door", []⟩ bell [.init] []
      (new ⟨"door", []⟩ bell) := .new
  have hpasses := passes_run (w := ⟨evaluate, actions⟩) 10 hnew
  have hstates : [.init] ++ (new ⟨"door", []⟩ bell).runStates ⟨evaluate, actions⟩ 10 = states := by
    decide +kernel
  have ho : p.outcome? = some ⟨"door", "bell", .error, ["ring"],
      some "No such action module: horn"⟩ := by decide +kernel
  rw [hstates] at hpasses
  exact ⟨_, _, hpasses, ho, rfl, rfl,
    (lives_properly actions ⟨"door", []⟩ bell).1 _ _ _ _ _ hpasses⟩

end Pipeline

end Reactor
