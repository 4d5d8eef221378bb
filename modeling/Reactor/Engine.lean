/-
  The engine.

  An engine has modules, the active reactions, an evaluator of scripts, and
  counts.  For an event it launches one pipeline for each reaction to it.

  * `add`, `remove` and `seed` change the active reactions; steps are named as
    they come in;
  * `dispatch` counts an event and gives the pipelines that it launches, in the
    order of the reactions;
  * `finish` counts a pipeline that has ended.
-/
import Reactor.Engine.Metrics
import Reactor.Engine.Pipeline
import Reactor.Engine.Setup
import Reactor.Engine.Store

namespace Reactor

/-- An engine. -/
structure Engine where
  actions : Registry ActionModule
  sources : Registry EventSource
  evaluate : Evaluator
  store : Store
  metrics : Metrics

namespace Engine

/-- An engine without reactions. -/
def new (actions : Registry ActionModule) (sources : Registry EventSource)
    (evaluate : Evaluator) : Engine :=
  ⟨actions, sources, evaluate, .empty, .zero⟩

/-- What pipelines of this engine run in. -/
def surroundings (e : Engine) : Surroundings := ⟨e.evaluate, e.actions⟩

/-! ## Reactions -/

/-- Adds a reaction and gives it as it was added. -/
def add (e : Engine) (r : Reaction) : Except StoreError (Reaction × Engine) := do
  let store ← e.store.add r.normalize
  return (r.normalize, { e with store })

/-- Takes a reaction away and gives it. -/
def remove (e : Engine) (event name : String) : Except StoreError (Reaction × Engine) := do
  let (r, store) ← e.store.remove event name
  return (r, { e with store })

/-- Adds reactions, passing over what is refused; gives how many were added. -/
def seed (e : Engine) (rs : List Reaction) : Nat × Engine :=
  let (refused, store) := e.store.seed (rs.map Reaction.normalize)
  (rs.length - refused.length, { e with store })

/-! ## Events -/

/-- Counts an event as received. -/
def receive (e : Engine) : Engine := { e with metrics := e.metrics.countReceived }

/-- Counts an event as matched or not. -/
def countMatch (e : Engine) (isMatched : Bool) : Engine :=
  { e with metrics := if isMatched then e.metrics.countMatched else e.metrics.countUnmatched }

/-- Counts an event as matched or not, and gives the pipelines that it
    launches. -/
def launch (e : Engine) (event : Event) : List Pipeline × Engine :=
  let reactions := e.store.matchesFor event.name
  (reactions.map (Pipeline.new event), e.countMatch !reactions.isEmpty)

/-- Counts an event and gives the pipelines that it launches. -/
def dispatch (e : Engine) (event : Event) : List Pipeline × Engine := e.receive.launch event

/-- Counts a pipeline that has ended. -/
def finish (e : Engine) (s : Status) : Engine := { e with metrics := e.metrics.countEnded s }

/-- Runs a pipeline to its end and counts it; with what it did. -/
def complete (e : Engine) (p : Pipeline) : Option Outcome × List Act × Engine :=
  let (p, acts) := p.run e.surroundings Pipeline.horizon
  match p.outcome? with
  | some o => (some o, acts, e.finish o.status)
  | none => (none, acts, e)

/-- Runs pipelines to their end, one after the other. -/
def completeAll (e : Engine) : List Pipeline → List Outcome × List Act × Engine
  | [] => ([], [], e)
  | p :: rest =>
    let (o, acts, e) := e.complete p
    let (os, more, e) := completeAll e rest
    (o.toList ++ os, acts ++ more, e)

/-- Dispatches events, each after the pipelines of the one before have ended;
    with the number of pipelines. -/
def dispatchAll (e : Engine) : List Event → Nat × List Act × Engine
  | [] => (0, [], e)
  | event :: rest =>
    let (ps, e) := e.dispatch event
    let (_, acts, e) := e.completeAll ps
    let (n, more, e) := dispatchAll e rest
    (ps.length + n, acts ++ more, e)

/-! ## Modules -/

/-- Sets up the listed modules at a time of day: the outcomes, actions first,
    and the events that the sources send. -/
def startModules (e : Engine) (resolver : Resolver) (now : String) (isOpen : Bool)
    (actionNames sourceNames : List String) : List SetupOutcome × List Event :=
  let fromSources := Setup.setUpSources e.sources resolver now isOpen sourceNames
  (Setup.setUpActions e.actions resolver actionNames ++ fromSources.map (·.1),
    fromSources.flatMap (·.2))

/-- What the action modules can do, by their names. -/
def describeActions (e : Engine) : Fields (List Capability) :=
  e.actions.describeAll ActionModule.capabilities

/-- Which events the sources bring, by their names. -/
def describeEvents (e : Engine) : Fields (List Capability) :=
  e.sources.describeAll EventSource.capabilities

end Engine

end Reactor
