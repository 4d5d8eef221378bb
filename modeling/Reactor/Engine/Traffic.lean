/-
  Events and pipelines under way.

  Senders, the event loop, the dispatches of events, and the pipelines take
  turns in any order, and the active reactions may change meanwhile.  A dispatch
  counts its event, looks up the reactions to it, counts whether there are any,
  and launches their pipelines one by one.

  * `Traffic` is what is under way at some time;
  * `Move` is what may happen next, and `Traffic.move?` is what it leads to;
    `none` if it cannot happen now;
  * `Traffic.join` waits for the pipelines of a dispatch;
  * `Traffic.Leads` are the states that moves lead to, given which changes of the
    active reactions there may be.
-/
import Reactor.Engine
import Reactor.Engine.Queue

namespace Reactor

/-- What a dispatch has started: nothing, or pipelines, each known by its
    place. -/
inductive DispatchOutcome where
  | unmatched
  | launched (handles : List Nat)
deriving DecidableEq, Repr

/-- The pipelines that a dispatch has started. -/
def DispatchOutcome.handles : DispatchOutcome → List Nat
  | unmatched => []
  | launched handles => handles

/-- How far a dispatch is. -/
inductive DispatchPhase where
  /-- it has not begun: the event was taken from the queue, or handed in -/
  | waiting
  /-- the event is counted -/
  | received
  /-- the reactions to the event are looked up -/
  | matched (reactions : List Reaction)
  /-- it is counted that there are some, and some are not launched yet -/
  | launching (left : List Reaction) (handles : List Nat)
  | ended (outcome : DispatchOutcome)

/-- The dispatch of an event. -/
structure Dispatch where
  event : Event
  phase : DispatchPhase

/-- A pipeline that was launched; it has an outcome once it is counted. -/
structure Launched where
  pipeline : Pipeline
  outcome? : Option Outcome

/-- What is under way. -/
structure Traffic where
  engine : Engine
  queue : Queue
  /-- whether the event loop has stopped -/
  stopped : Bool
  dispatches : List Dispatch
  pipelines : List Launched
  /-- how many events were put into the queue, and handed in -/
  sent : Nat
  handed : Nat

/-- What may happen next. -/
inductive Move where
  /-- a sender puts an event into the queue -/
  | send (e : Event)
  /-- a sender makes another -/
  | share
  /-- a sender goes -/
  | leave
  /-- the event loop takes an event from the queue, which is to be dispatched -/
  | take
  /-- the event loop stops -/
  | stop
  /-- an event is handed in directly -/
  | hand (e : Event)
  /-- a dispatch goes on by a step -/
  | dispatch (place : Nat)
  /-- a pipeline goes on by a step -/
  | advance (handle : Nat)
  /-- a pipeline that has ended is counted -/
  | finish (handle : Nat)
  /-- the active reactions change -/
  | change (store : Store)

namespace Traffic

/-- Nothing under way, with an engine and a queue. -/
def start (engine : Engine) (queue : Queue) : Traffic :=
  ⟨engine, queue, false, [], [], 0, 0⟩

/-- An event is to be dispatched. -/
def accept (t : Traffic) (e : Event) : Traffic :=
  { t with dispatches := t.dispatches ++ [⟨e, .waiting⟩] }

/-- A pipeline is launched. -/
def spawn (t : Traffic) (p : Pipeline) : Traffic :=
  { t with pipelines := t.pipelines ++ [⟨p, none⟩] }

/-- A dispatch has come to a phase. -/
def enter (t : Traffic) (place : Nat) (event : Event) (phase : DispatchPhase) : Traffic :=
  { t with dispatches := t.dispatches.set place ⟨event, phase⟩ }

/-- The next step of a dispatch at a place. -/
def dispatch? (t : Traffic) (place : Nat) (d : Dispatch) : Option Traffic :=
  match d.phase with
  | .waiting => some ({ t with engine := t.engine.receive }.enter place d.event .received)
  | .received => some (t.enter place d.event (.matched (t.engine.store.matchesFor d.event.name)))
  | .matched [] =>
    some ({ t with engine := t.engine.countMatch false }.enter place d.event (.ended .unmatched))
  | .matched rs =>
    some ({ t with engine := t.engine.countMatch true }.enter place d.event (.launching rs []))
  | .launching (r :: left) handles =>
    some ((t.spawn (.new d.event r)).enter place d.event
      (.launching left (handles ++ [t.pipelines.length])))
  | .launching [] handles => some (t.enter place d.event (.ended (.launched handles)))
  | .ended _ => none

/-- The next step of a pipeline at a place. -/
def advance? (t : Traffic) (handle : Nat) (l : Launched) : Option Traffic :=
  if l.pipeline.isEnded then none
  else some { t with
    pipelines :=
      t.pipelines.set handle { l with pipeline := (l.pipeline.step t.engine.surroundings).1 } }

/-- Counts a pipeline at a place, if it has ended and is not counted yet. -/
def finish? (t : Traffic) (handle : Nat) (l : Launched) : Option Traffic :=
  match l.outcome?, l.pipeline.outcome? with
  | none, some o => some { t with
      engine := t.engine.finish o.status
      pipelines := t.pipelines.set handle ⟨l.pipeline, some o⟩ }
  | _, _ => none

/-- What a move leads to. -/
def move? (t : Traffic) : Move → Option Traffic
  | .send e => (t.queue.send? e).map fun queue => { t with queue, sent := t.sent + 1 }
  | .share => t.queue.share?.map fun queue => { t with queue }
  | .leave => t.queue.leave?.map fun queue => { t with queue }
  | .take =>
    if t.stopped then none
    else t.queue.take?.map fun (e, queue) => { t with queue }.accept e
  | .stop => if t.queue.isExhausted then some { t with stopped := true } else none
  | .hand e => some ({ t with handed := t.handed + 1 }.accept e)
  | .dispatch i => t.dispatches[i]?.bind (t.dispatch? i)
  | .advance h => t.pipelines[h]?.bind (t.advance? h)
  | .finish h => t.pipelines[h]?.bind (t.finish? h)
  | .change store => some { t with engine := { t.engine with store } }

/-- What moves in a row lead to. -/
def moves? (t : Traffic) : List Move → Option Traffic
  | [] => some t
  | m :: ms => (t.move? m).bind (moves? · ms)

/-! ## Waiting for pipelines -/

/-- The outcome of a pipeline, once it is counted. -/
def outcome? (t : Traffic) (handle : Nat) : Option Outcome :=
  t.pipelines[handle]?.bind (·.outcome?)

/-- The outcomes of the pipelines that a dispatch has started, in order, once
    all of them are there. -/
def join (t : Traffic) (o : DispatchOutcome) : Option (List Outcome) := o.handles.mapM t.outcome?

/-! ## What can happen -/

/-- Whether a move may be made: of the changes of the active reactions there are
    only some. -/
def Allows (t : Traffic) (changes : Store → Store → Prop) : Move → Prop
  | .change store => changes t.engine.store store
  | _ => True

/-- The states that moves lead to. -/
inductive Leads (changes : Store → Store → Prop) (t : Traffic) : Traffic → Prop
  | refl : Leads changes t t
  | move {u v : Traffic} (m : Move) :
      Leads changes t u → u.Allows changes m → u.move? m = some v → Leads changes t v

end Traffic

end Reactor
