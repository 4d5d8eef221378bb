/-
  The life of a pipeline.

  A pipeline begins, awaits its first script, runs steps, and ends: done, not
  launched, or in error.

  * `State.allows` says which state may follow which;
  * `State.transition` goes to a state that is allowed, and refuses others.
-/
import Reactor.Engine.Error
import Reactor.Engine.Metrics

namespace Reactor

/-- Where a pipeline is. -/
inductive State where
  | init
  /-- the first script is evaluated -/
  | awaitingScript
  /-- a step's action runs, then the step's script -/
  | running (step : String)
  | done
  | notLaunched
  | error
deriving DecidableEq, Repr, Inhabited

namespace State

/-- The name of a state for a reader. -/
def display : State → String
  | init => "init"
  | awaitingScript => "awaiting script"
  | running s => "running(" ++ s ++ ")"
  | done => "done"
  | notLaunched => "not launched"
  | error => "error"

/-- How a pipeline in this state has ended; `none` if it has not. -/
def status? : State → Option Status
  | done => some .done
  | notLaunched => some .notLaunched
  | error => some .error
  | _ => none

/-- Whether a pipeline in this state has ended. -/
def isTerminal (s : State) : Bool := s.status?.isSome

/-- Whether one state may follow another. -/
def allows : State → State → Bool
  | init, awaitingScript => true
  | awaitingScript, running _ => true
  | awaitingScript, notLaunched => true
  | running _, running _ => true
  | running _, done => true
  | s, error => !s.isTerminal
  | _, _ => false

/-- Goes to another state, if that is allowed. -/
def transition (source target : State) : Except PipelineError State :=
  if source.allows target then .ok target
  else .error (.invalidTransition source.display target.display)

end State

end Reactor
