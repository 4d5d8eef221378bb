/-
  What can go wrong in the engine, with the messages.
-/
import Reactor.Payload
import Reactor.Script.Decision

namespace Reactor

/-- A name that no module is registered under. -/
inductive RegistryError where
  | notFound (kind name : String)
deriving DecidableEq, Repr, Inhabited

/-- What an error of a registry says. -/
def RegistryError.message : RegistryError → String
  | notFound kind name => "No such " ++ kind ++ ": " ++ name

/-- Why an action module fails. -/
inductive ActionError where
  | unknownAction (module action : String)
  | invalidPayload (message : String)
  | failed (message : String)
  | setup (message : String)
deriving DecidableEq, Repr, Inhabited

namespace ActionError

/-- A payload that an action cannot read. -/
def ofPayload (e : PayloadError) : ActionError := .invalidPayload e.message

/-- What an error of an action says. -/
def message : ActionError → String
  | unknownAction m a => "Unknown action '" ++ a ++ "' for module '" ++ m ++ "'"
  | invalidPayload s => "Payload validation failed: " ++ s
  | failed s => "Action failed: " ++ s
  | setup s => "Action module setup failed: " ++ s

end ActionError

/-- Why an event source fails. -/
inductive SourceError where
  | invalidConfig (message : String)
  | setup (message : String)
  | queueClosed
deriving DecidableEq, Repr, Inhabited

/-- What an error of a source says. -/
def SourceError.message : SourceError → String
  | invalidConfig s => "Invalid event source configuration: " ++ s
  | setup s => "Event source setup failed: " ++ s
  | queueClosed => "Event queue closed"

/-- Why there is no configuration for a module. -/
inductive ResolveError where
  | notFound (module : String)
  | io (kind message : String)
deriving DecidableEq, Repr, Inhabited

/-- What an error of a search for a configuration says. -/
def ResolveError.message : ResolveError → String
  | notFound m => "No configuration for module: " ++ m
  | io _ s => "I/O error: " ++ s

/-- Why the store refuses. -/
inductive StoreError where
  | noReactionsForEvent (event : String)
  | reactionNotFound (event name : String)
  | duplicate (event name : String)
deriving DecidableEq, Repr, Inhabited

/-- What an error of a store says. -/
def StoreError.message : StoreError → String
  | noReactionsForEvent e => "No reactions matching event '" ++ e ++ "'"
  | reactionNotFound e n => "Reaction '" ++ n ++ "' not found for event '" ++ e ++ "'"
  | duplicate e n => "Reaction '" ++ n ++ "' already exists for event '" ++ e ++ "'"

/-- Why a pipeline fails. -/
inductive PipelineError where
  | script (e : ScriptError)
  | unknownStep (step : String)
  | registry (e : RegistryError)
  | action (step : String) (e : ActionError)
  | invalidTransition (source target : String)
  | worker (message : String)
deriving DecidableEq, Repr, Inhabited

/-- What an error of a pipeline says. -/
def PipelineError.message : PipelineError → String
  | script e => e.message
  | unknownStep s => "Reaction has no step named '" ++ s ++ "'"
  | registry e => e.message
  | action s e => "Step '" ++ s ++ "' failed: " ++ e.message
  | invalidTransition a b => "Invalid pipeline transition: " ++ a ++ " -> " ++ b
  | worker s => "Script worker failed: " ++ s

end Reactor
