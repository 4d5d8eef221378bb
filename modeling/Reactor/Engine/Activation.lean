/-
  Setting up modules at the same time.

  The listed names are looked up one after the other, those of action modules
  first.  Each module that is registered gets a task, which finds its
  configuration and calls its setup.  The tasks, the event loop and other senders
  take turns in any order, and setups may take as long as they like.

  * `SetupTask` is the task of one module, `SetupBatch` the tasks of a list, with
    what was skipped and a record of what was called and sent;
  * `Activation` is the setup of all listed modules; `Activation.Move` is what may
    happen next, and `Activation.move?` what it leads to; `none` if it cannot
    happen now;
  * `Activation.join?` gives the outcomes, once all tasks have ended;
  * `Conduct` says what setups may do, and `Activation.Leads` which states moves
    then lead to.
-/
import Reactor.Engine
import Reactor.Engine.Queue

namespace Reactor

/-- How a setup ends. -/
inductive SetupEnding (ε : Type) where
  | returned (r : Except ε Unit)
  | panicked

/-- What a setup does: the events that it puts into the queue, in order, and how
    it ends. -/
structure SetupEffect (ε : Type) where
  events : List Event
  ending : SetupEnding ε

/-- A call of a setup: of the module with a name, with some bytes, and what it
    does. -/
structure SetupCall (ε : Type) where
  name : String
  config : ByteArray
  effect : SetupEffect ε

/-- How far the task of a module is. -/
inductive SetupPhase (ε : Type) where
  | spawned
  /-- the configuration is there -/
  | configured (config : ByteArray)
  /-- the setup was called, and has put so many of its events into the queue -/
  | called (call : SetupCall ε) (sent : Nat)
  | ended (call : SetupCall ε)

/-- The task of a module. -/
structure SetupTask (α ε : Type) where
  name : String
  module : α
  phase : SetupPhase ε

/-- The tasks of the modules in a list. -/
structure SetupBatch (α ε : Type) where
  /-- the names that are not looked up yet -/
  names : List String
  tasks : List (SetupTask α ε)
  skipped : List String
  /-- the setups that were called, and the events that they have sent so far -/
  calls : List (SetupCall ε)
  sent : List Event

/-- What may happen next to the modules in a list. -/
inductive SetupMove (ε : Type) where
  /-- the next name is looked up -/
  | lookUp
  /-- a task finds the configuration of its module -/
  | resolve (place : Nat)
  /-- a task calls the setup -/
  | call (place : Nat) (effect : SetupEffect ε)
  /-- a setup puts its next event into the queue -/
  | send (place : Nat)
  /-- a setup ends -/
  | finish (place : Nat)

namespace SetupTask

variable {α ε : Type}

/-- Whether a task has ended. -/
def isEnded (t : SetupTask α ε) : Bool :=
  match t.phase with
  | .ended _ => true
  | _ => false

/-- The outcome of a task; none if it has not ended, or its setup has panicked. -/
def outcome? (message : ε → String) (t : SetupTask α ε) : Option SetupOutcome :=
  match t.phase with
  | .ended call =>
    match call.effect.ending with
    | .returned r => some (.ofExcept message t.name r)
    | .panicked => none
  | _ => none

end SetupTask

namespace SetupBatch

variable {α ε : Type}

/-- Nothing looked up yet. -/
def start (names : List String) : SetupBatch α ε := ⟨names, [], [], [], []⟩

/-- Looks up the next name: its module gets a task, or it is skipped. -/
def lookUp? (r : Registry α) (b : SetupBatch α ε) : Option (SetupBatch α ε) :=
  match b.names with
  | [] => none
  | n :: names =>
    match r.lookup n with
    | .ok m => some { b with names, tasks := b.tasks ++ [⟨n, m, .spawned⟩] }
    | .error _ => some { b with names, skipped := b.skipped ++ [n] }

/-- The task at a place has come to a phase. -/
def enter (b : SetupBatch α ε) (place : Nat) (t : SetupTask α ε) (phase : SetupPhase ε) :
    SetupBatch α ε :=
  { b with tasks := b.tasks.set place { t with phase } }

/-- What a move leads to; with the queue. -/
def move? (r : Registry α) (resolver : Resolver) (b : SetupBatch α ε) (q : Queue)
    (m : SetupMove ε) : Option (SetupBatch α ε × Queue) :=
  match m with
  | .lookUp => (b.lookUp? r).map (·, q)
  | .resolve i => do
    let t ← b.tasks[i]?
    match t.phase with
    | .spawned => some (b.enter i t (.configured (Setup.configFor resolver t.name)), q)
    | _ => none
  | .call i effect => do
    let t ← b.tasks[i]?
    match t.phase with
    | .configured config =>
      let call : SetupCall ε := ⟨t.name, config, effect⟩
      some ({ b with calls := b.calls ++ [call] }.enter i t (.called call 0), q)
    | _ => none
  | .send i => do
    let t ← b.tasks[i]?
    match t.phase with
    | .called call n =>
      let e ← call.effect.events[n]?
      let q ← q.send? e
      some ({ b with sent := b.sent ++ [e] }.enter i t (.called call (n + 1)), q)
    | _ => none
  | .finish i => do
    let t ← b.tasks[i]?
    match t.phase with
    | .called call n =>
      if n = call.effect.events.length then some (b.enter i t (.ended call), q) else none
    | _ => none

/-- Whether all names are looked up and all tasks have ended. -/
def isOver (b : SetupBatch α ε) : Bool := b.names.isEmpty && b.tasks.all (·.isEnded)

/-- The outcomes of the tasks, in order. -/
def outcomes (message : ε → String) (b : SetupBatch α ε) : List SetupOutcome :=
  b.tasks.filterMap (·.outcome? message)

/-- The outcomes, once all tasks have ended. -/
def join? (message : ε → String) (b : SetupBatch α ε) : Option (List SetupOutcome) :=
  if b.isOver then some (b.outcomes message) else none

end SetupBatch

/-- The setup of all listed modules, with the queue that sources are given. -/
structure Activation where
  actions : SetupBatch ActionModule ActionError
  sources : SetupBatch EventSource SourceError
  queue : Queue

/-- What setups may do, given their bytes; those of action modules have no
    queue. -/
structure Conduct where
  action : ActionModule → ByteArray → SetupEffect ActionError → Prop
  source : EventSource → ByteArray → SetupEffect SourceError → Prop
  silent : ∀ m config effect, action m config effect → effect.events = []

namespace Activation

/-- What may happen next. -/
inductive Move where
  | action (m : SetupMove ActionError)
  | source (m : SetupMove SourceError)
  /-- another sender puts an event into the queue -/
  | put (e : Event)
  /-- the event loop takes one -/
  | take

/-- Nothing looked up yet. -/
def start (actionNames sourceNames : List String) (queue : Queue) : Activation :=
  ⟨.start actionNames, .start sourceNames, queue⟩

/-- What a move leads to.  Sources are looked up after all action modules. -/
def move? (engine : Engine) (resolver : Resolver) (a : Activation) : Move → Option Activation
  | .action m =>
    (a.actions.move? engine.actions resolver a.queue m).map fun (actions, queue) =>
      { a with actions, queue }
  | .source m =>
    if a.actions.names.isEmpty then
      (a.sources.move? engine.sources resolver a.queue m).map fun (sources, queue) =>
        { a with sources, queue }
    else none
  | .put e => (a.queue.send? e).map fun queue => { a with queue }
  | .take => a.queue.take?.map fun (_, queue) => { a with queue }

/-- The outcomes, actions first, once all tasks have ended. -/
def join? (a : Activation) : Option (List SetupOutcome) := do
  let fromActions ← a.actions.join? ActionError.message
  let fromSources ← a.sources.join? SourceError.message
  return fromActions ++ fromSources

/-! ## What can happen -/

/-- Whether a call at a place is one that the module may answer so. -/
def AllowsCall {α ε : Type} (may : α → ByteArray → SetupEffect ε → Prop) (b : SetupBatch α ε) :
    SetupMove ε → Prop
  | .call i effect =>
    ∀ t config, b.tasks[i]? = some t → t.phase = .configured config → may t.module config effect
  | _ => True

/-- Whether a move may be made: setups do only what they may. -/
def Allows (conduct : Conduct) (a : Activation) : Move → Prop
  | .action m => AllowsCall conduct.action a.actions m
  | .source m => AllowsCall conduct.source a.sources m
  | _ => True

/-- The states that moves lead to. -/
inductive Leads (engine : Engine) (resolver : Resolver) (conduct : Conduct) (a : Activation) :
    Activation → Prop
  | refl : Leads engine resolver conduct a a
  | move {b c : Activation} (m : Move) : Leads engine resolver conduct a b →
      b.Allows conduct m → b.move? engine resolver m = some c → Leads engine resolver conduct a c

end Activation

/-! ## What the modules of an engine do -/

/-- What a setup does that ends so. -/
def SetupEffect.silently {ε : Type} (r : Except ε Unit) : SetupEffect ε := ⟨[], .returned r⟩

/-- What the setup of a source does at a time of day with an open or a closed
    queue. -/
def Emission.effect (e : Emission) (isOpen : Bool) : SetupEffect SourceError :=
  ⟨(e.onto isOpen).1, .returned (e.onto isOpen).2⟩

/-- Modules do what they are made for, at a time of day. -/
def Conduct.proper (now : String) (isOpen : Bool) : Conduct where
  action m config effect := effect = .silently (m.setup config)
  source m config effect := effect = (m.setup now config).effect isOpen
  silent := by rintro m config _ rfl; rfl

end Reactor
