/-
  A service over time.

  Requests are answered one at a time, each in some second, and now and then the
  service starts anew on the same storage.

  * `Service.new` is a service with nothing in its storage, `Service.restart`
    one that has taken over what is persisted;
  * a `Turn` is a request or a restart, and `Service.after` is the service
    after some turns;
  * `Turn.reading?` is the reading of the clock that a turn takes, if it
    persists a reaction.
-/
import Reactor.Http.Router

namespace Reactor.Http

namespace Service

/-- A service with nothing in its storage. -/
def new (actions : Registry ActionModule) (sources : Registry EventSource)
    (evaluate : Evaluator) : Service :=
  ⟨.new actions sources evaluate, .empty, [], 0, 0⟩

/-- Starts anew on the same storage: a fresh engine with the same modules takes
    over what is persisted. -/
def restart (s : Service) : Except ServiceError Service := do
  let persisted ← s.storage.all
  let fresh := Engine.new s.engine.actions s.engine.sources s.engine.evaluate
  return { s with engine := (fresh.seed persisted).2, running := [], uptime := 0 }

end Service

/-- What happens to a service. -/
inductive Turn where
  /-- a request is answered in some second -/
  | request (now : Int) (req : Request)
  | restart

namespace Turn

/-- What a turn leads to; a restart fails if something persisted cannot be
    read. -/
def take (s : Service) : Turn → Except ServiceError Service
  | request now req => .ok ((answer req).run { s with now }).2
  | restart => s.restart

/-- The reading of the clock that a turn takes to persist a reaction. -/
def reading? : Turn → Option Int
  | request now req =>
    match answer req with
    | .call (.create _) _ => some now
    | _ => none
  | restart => none

end Turn

/-- The service after some turns. -/
def Service.after (s : Service) : List Turn → Except ServiceError Service
  | [] => .ok s
  | t :: ts => do (← t.take s).after ts

end Reactor.Http
