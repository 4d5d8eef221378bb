/-
  Modules.

  An action module offers named actions, an event source sends events.  Both
  are set up once from some bytes, their configuration, which may be empty.

  * `ActionModule` and `EventSource` are what the engine knows of a module;
  * `Emission.onto` is what becomes of a source's events on an open or a closed
    queue.
-/
import Reactor.Capability
import Reactor.Event
import Reactor.Engine.Error

namespace Reactor

/-- A module that runs actions. -/
structure ActionModule where
  capabilities : List Capability
  setup : ByteArray → Except ActionError Unit
  dispatch : String → Payload → Except ActionError Payload

/-- What the setup of a source does: the events that it sends, in order, how it
    ends, and whether it goes on sending events of its own for ever, at
    intervals below so many milliseconds. -/
structure Emission where
  events : List Event
  outcome : Except SourceError Unit
  interval? : Option Nat

/-- A module that sends events; its setup is given the time of day. -/
structure EventSource where
  capabilities : List Capability
  setup : String → ByteArray → Emission

namespace Emission

/-- Sends some events and succeeds. -/
def sends (events : List Event) : Emission := ⟨events, .ok (), none⟩

/-- Fails without sending anything. -/
def fails (e : SourceError) : Emission := ⟨[], .error e, none⟩

/-- The events that reach a queue, and how the setup ends: a closed queue takes
    none, and refuses the first. -/
def onto (e : Emission) (isOpen : Bool) : List Event × Except SourceError Unit :=
  if isOpen ∨ e.events.isEmpty then (e.events, e.outcome) else ([], .error .queueClosed)

end Emission

end Reactor
