/-
  Pipelines.

  A pipeline runs one reaction on one event.  It evaluates the script of the
  reaction, runs the step that the script picks, evaluates the script of that
  step on its output, and so on, until a script stops, a step has no script, or
  something fails.  Every script sees the data of the same event.

  * `Phase` is what a pipeline does next;
  * `begin`, `onDecision` and `onOutput` take a pipeline on when it starts, when
    a script has decided and when an action has ended;
  * `Surroundings` are an evaluator and modules, `step` takes a pipeline on by
    what they answer, and `run` repeats it;
  * an `Act` is an evaluation or an action that was run, with what came of it.
-/
import Reactor.Event
import Reactor.Reaction
import Reactor.Engine.Lifecycle
import Reactor.Engine.Registry

namespace Reactor

/-- What a pipeline does next. -/
inductive Phase where
  | start
  /-- evaluates a script on the output of the step before, if there was one -/
  | evaluate (prior : Option Payload) (script : String)
  /-- runs the action of a step -/
  | dispatch (step : String) (module : ActionModule) (input : Payload)
  /-- nothing: it has ended, or failed for a reason -/
  | ended (error? : Option PipelineError)

/-- A reaction under way on an event. -/
structure Pipeline where
  event : Event
  reaction : Reaction
  state : State
  /-- the steps whose action has succeeded, in order -/
  completed : List String
  phase : Phase

/-- What has come of a pipeline. -/
structure Outcome where
  event : String
  reaction : String
  status : Status
  steps : List String
  error? : Option String
deriving DecidableEq, Repr

/-- Something that a pipeline has done, with what came of it. -/
inductive Act where
  | evaluated (data : Payload) (prior : Option Payload) (script : String)
      (result : Except ScriptError Decision)
  | dispatched (step module action : String) (input : Payload)
      (result : Except ActionError Payload)

/-- What pipelines run in: an evaluator and the action modules. -/
structure Surroundings where
  evaluate : Evaluator
  actions : Registry ActionModule

namespace Pipeline

/-- A pipeline that has not begun. -/
def new (event : Event) (reaction : Reaction) : Pipeline :=
  ⟨event, reaction, .init, [], .start⟩

/-- Ends with an error, unless it has ended. -/
def fail (p : Pipeline) (e : PipelineError) : Pipeline :=
  { p with state := if p.state.isTerminal then p.state else .error, phase := .ended (some e) }

/-- Goes to a state and on with a phase, or fails. -/
def enter (p : Pipeline) (target : State) (phase : Phase) : Pipeline :=
  match p.state.transition target with
  | .ok s => { p with state := s, phase }
  | .error e => p.fail e

/-- Goes on with the script of the reaction. -/
def begin (p : Pipeline) : Pipeline :=
  p.enter .awaitingScript (.evaluate none p.reaction.script)

/-- Goes on with a step: the reaction must have it and its module must be
    registered. -/
def goTo (p : Pipeline) (actions : Registry ActionModule) (next : String) (input : Payload) :
    Pipeline :=
  match p.reaction.step? next with
  | none => p.fail (.unknownStep next)
  | some s =>
    match p.state.transition (.running next), actions.lookup s.module with
    | .error e, _ => p.fail e
    | .ok state, .error e => { p with state }.fail (.registry e)
    | .ok state, .ok m => { p with state, phase := .dispatch next m input }

/-- Goes on when a script has decided; the first one may choose not to start. -/
def onDecision (p : Pipeline) (actions : Registry ActionModule) (isFirst : Bool)
    (d : Except ScriptError Decision) : Pipeline :=
  match d with
  | .error e => p.fail (.script e)
  | .ok .stop => p.enter (if isFirst then .notLaunched else .done) (.ended none)
  | .ok (.continue_ next input) => p.goTo actions next input

/-- Goes on when the action of a step has ended. -/
def onOutput (p : Pipeline) (step : String) (r : Except ActionError Payload) : Pipeline :=
  match r with
  | .error e => p.fail (.action step e)
  | .ok output =>
    let p := { p with completed := p.completed ++ [step] }
    match p.reaction.step? step with
    | some s =>
      if s.script = "" then p.enter .done (.ended none)
      else { p with phase := .evaluate (some output) s.script }
    | none => p.fail (.unknownStep step)

/-- The module and the action of a step. -/
def target (p : Pipeline) (step : String) : String × String :=
  match p.reaction.step? step with
  | some s => (s.module, s.action)
  | none => ("", "")

/-- One step of a pipeline, with what it did. -/
def step (w : Surroundings) (p : Pipeline) : Pipeline × Option Act :=
  match p.phase with
  | .start => (p.begin, none)
  | .evaluate prior script =>
    let d := w.evaluate p.event.data prior script
    (p.onDecision w.actions prior.isNone d, some (.evaluated p.event.data prior script d))
  | .dispatch step m input =>
    let (module, action) := p.target step
    let r := m.dispatch action input
    (p.onOutput step r, some (.dispatched step module action input r))
  | .ended _ => (p, none)

/-- Whether a pipeline has ended. -/
def isEnded (p : Pipeline) : Bool :=
  match p.phase with
  | .ended _ => true
  | _ => false

/-- Repeats steps to the end, or as long as the fuel lasts; with all that was
    done, in order. -/
def run (w : Surroundings) : Nat → Pipeline → Pipeline × List Act
  | 0, p => (p, [])
  | fuel + 1, p =>
    if p.isEnded then (p, [])
    else
      let (p, a) := p.step w
      let (p, acts) := run w fuel p
      (p, a.toList ++ acts)

/-- What has come of a pipeline; `none` if it has not ended. -/
def outcome? (p : Pipeline) : Option Outcome :=
  match p.phase with
  | .ended e => some ⟨p.event.name, p.reaction.name,
      if e.isSome then .error else p.state.status?.getD .error, p.completed, e.map (·.message)⟩
  | _ => none

/-- How many steps a pipeline is given: more than it takes in any time at
    hand. -/
def horizon : Nat := Nat.pow 10 15

end Pipeline

end Reactor
