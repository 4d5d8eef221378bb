/-
  The active reactions.

  Reactions are filed under their event, in the order in which they came; an
  event without reactions is not in the store, and the event and the name
  together tell reactions apart.

  * `add`, `remove` and `get` work on one reaction, `matchesFor` gives those of
    one event, `all` those of all events in ascending order;
  * `seed` adds reactions one by one and gives what was refused.
-/
import Reactor.Engine.Error
import Reactor.Reaction

namespace Reactor

/-- The active reactions by event. -/
structure Store where
  byEvent : Fields (List Reaction)
deriving DecidableEq, Repr, Inhabited

namespace Store

/-- No reactions. -/
def empty : Store := ⟨[]⟩

/-- The reactions to an event, in the order in which they came. -/
def matchesFor (s : Store) (event : String) : List Reaction :=
  (Fields.get? event s.byEvent).getD []

/-- Adds a reaction after those of its event. -/
def add (s : Store) (r : Reaction) : Except StoreError Store :=
  let there := s.matchesFor r.event
  if there.any (·.name == r.name) then .error (.duplicate r.event r.name)
  else .ok ⟨Fields.insert r.event (there ++ [r]) s.byEvent⟩

/-- The reaction to an event with a name. -/
def get (s : Store) (event name : String) : Except StoreError Reaction :=
  match Fields.get? event s.byEvent with
  | none => .error (.noReactionsForEvent event)
  | some there =>
    match there.find? (·.name == name) with
    | some r => .ok r
    | none => .error (.reactionNotFound event name)

/-- Files other reactions under an event; none takes the event away. -/
def replace (s : Store) (event : String) : List Reaction → Store
  | [] => ⟨Fields.erase event s.byEvent⟩
  | rs => ⟨Fields.insert event rs s.byEvent⟩

/-- Takes a reaction away and gives it. -/
def remove (s : Store) (event name : String) : Except StoreError (Reaction × Store) := do
  let r ← s.get event name
  return (r, s.replace event ((s.matchesFor event).eraseP (·.name == name)))

/-- All reactions, by event and then in the order in which they came. -/
def all (s : Store) : List Reaction := s.byEvent.flatMap (·.2)

/-- The number of reactions. -/
def size (s : Store) : Nat := s.byEvent.foldl (fun n e => n + e.2.length) 0

/-- Adds reactions one by one; gives what was refused. -/
def seed (s : Store) : List Reaction → List StoreError × Store
  | [] => ([], s)
  | r :: rest =>
    match s.add r with
    | .ok s => s.seed rest
    | .error e => let (es, s) := s.seed rest; (e :: es, s)

end Store

end Reactor
