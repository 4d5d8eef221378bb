/-
  Handlers as sequences of calls.

  A handler answers a request by calls on the engine and on the storage, one
  after the other, and then a response.  Each call is one step, between which
  others may make theirs.

  * `Access` is a call, with the type of what it gives; `Access.run` makes it;
  * `Handler` is what a handler still has to do; `Handler.run` does it without a
    break, `Handler.step` makes one call.
-/
import Reactor.Engine
import Reactor.Storage
import Reactor.Http.Message

namespace Reactor.Http

/-- What handlers work on: the engine, the storage, pipelines that were launched
    and have not ended, the second of the day, and for how long it runs. -/
structure Service where
  engine : Engine
  storage : Storage
  running : List Pipeline
  now : Int
  uptime : Nat

/-- A call on the engine or on the storage. -/
inductive Access : Type → Type 1 where
  /-- persists a reaction -/
  | create (r : Reaction) : Access (Except ServiceError Unit)
  /-- takes a reaction out of the storage -/
  | delete (event name : String) : Access (Except ServiceError Unit)
  /-- reads a persisted reaction -/
  | fetch (event name : String) : Access (Except ServiceError (Option Reaction))
  /-- reads the persisted reactions, of one event or of all -/
  | list (event? : Option String) : Access (Except ServiceError (List Reaction))
  /-- makes a reaction active -/
  | activate (r : Reaction) : Access (Except StoreError Unit)
  /-- takes a reaction out of the active ones -/
  | deactivate (event name : String) : Access (Except StoreError Unit)
  /-- launches the pipelines of an event, and gives their number -/
  | launch (e : Event) : Access Nat
  /-- looks at the engine -/
  | view {α : Type} (look : Engine → α) : Access α
  /-- for how long the service runs -/
  | uptime : Access Nat

/-- A service with a new storage, if there is one. -/
def Service.store (s : Service) (r : Except ServiceError Storage) :
    Except ServiceError Unit × Service :=
  match r with
  | .ok storage => (.ok (), { s with storage })
  | .error e => (.error e, s)

/-- A service with a new engine, if there is one. -/
def Service.change (s : Service) (r : Except StoreError (Reaction × Engine)) :
    Except StoreError Unit × Service :=
  match r with
  | .ok (_, engine) => (.ok (), { s with engine })
  | .error e => (.error e, s)

/-- Makes a call. -/
def Access.run {α : Type} (a : Access α) (s : Service) : α × Service :=
  match a with
  | .create r => s.store (s.storage.create s.now r)
  | .delete event name => s.store (s.storage.delete event name)
  | .fetch event name => (s.storage.get event name, s)
  | .list (some event) => (s.storage.forEvent event, s)
  | .list none => (s.storage.all, s)
  | .activate r => s.change (s.engine.add r)
  | .deactivate event name => s.change (s.engine.remove event name)
  | .launch e =>
    let (ps, engine) := s.engine.dispatch e
    (ps.length, { s with engine, running := s.running ++ ps })
  | .view look => (look s.engine, s)
  | .uptime => (s.uptime, s)

/-- What a handler still has to do. -/
inductive Handler : Type 1 where
  | reply (r : Response)
  | call {α : Type} (a : Access α) (next : α → Handler)

namespace Handler

/-- Refuses. -/
def refuse (e : ApiError) : Handler := .reply e.response

/-- Makes one call; with the handler after it. -/
def step (h : Handler) (s : Service) : Handler × Service :=
  match h with
  | .reply r => (.reply r, s)
  | .call a next => let (x, s) := a.run s; (next x, s)

/-- Makes all calls, and gives the response. -/
def run : Handler → Service → Response × Service
  | .reply r, s => (r, s)
  | .call a next, s => let (x, s) := a.run s; (next x).run s

/-- A handler whose response has no body. -/
def head : Handler → Handler
  | .reply r => .reply r.head
  | .call a next => .call a fun x => (next x).head

end Handler

end Reactor.Http
