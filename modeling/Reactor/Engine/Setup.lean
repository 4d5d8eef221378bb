/-
  Setting up modules.

  Every listed module that is registered is set up with the bytes that the
  resolver gives for it, or with none if the resolver fails.  What becomes of
  one module does not touch another.

  * `plan` splits a list of names into what is set up and what is skipped;
  * `setUpActions` and `setUpSources` give one outcome per module that was
    registered, in the order of the list.
-/
import Reactor.Engine.Registry
import Reactor.Engine.Resolver

namespace Reactor

/-- What has become of a module: the message of its failure, if it failed. -/
structure SetupOutcome where
  module : String
  error? : Option String
deriving DecidableEq, Repr

namespace SetupOutcome

/-- Whether a module was set up. -/
def isOk (o : SetupOutcome) : Bool := o.error?.isNone

/-- The outcome of a setup. -/
def ofExcept {ε α : Type} (message : ε → String) (module : String) (r : Except ε α) :
    SetupOutcome :=
  match r with
  | .ok _ => ⟨module, none⟩
  | .error e => ⟨module, some (message e)⟩

end SetupOutcome

namespace Setup

variable {α : Type}

/-- The names that are registered, with their modules, and those that are not,
    both in the order of the list. -/
def plan (r : Registry α) (names : List String) : List (String × α) × List String :=
  (names.filterMap fun n => match r.lookup n with
      | .ok m => some (n, m)
      | .error _ => none,
    names.filter fun n => !r.contains n)

/-- The configuration of a module; empty if it cannot be found. -/
def configFor (resolver : Resolver) (module : String) : ByteArray :=
  match resolver module with
  | .ok bytes => bytes
  | .error _ => .empty

/-- Sets up one action module. -/
def setUpAction (resolver : Resolver) (named : String × ActionModule) : SetupOutcome :=
  .ofExcept ActionError.message named.1 (named.2.setup (configFor resolver named.1))

/-- Sets up action modules. -/
def setUpActions (r : Registry ActionModule) (resolver : Resolver) (names : List String) :
    List SetupOutcome :=
  (plan r names).1.map (setUpAction resolver)

/-- Sets up one event source at a time of day; with the events that reach the
    queue. -/
def setUpSource (resolver : Resolver) (now : String) (isOpen : Bool)
    (named : String × EventSource) : SetupOutcome × List Event :=
  let (events, outcome) := (named.2.setup now (configFor resolver named.1)).onto isOpen
  (.ofExcept SourceError.message named.1 outcome, events)

/-- Sets up event sources. -/
def setUpSources (r : Registry EventSource) (resolver : Resolver) (now : String) (isOpen : Bool)
    (names : List String) : List (SetupOutcome × List Event) :=
  (plan r names).1.map (setUpSource resolver now isOpen)

end Setup

end Reactor
