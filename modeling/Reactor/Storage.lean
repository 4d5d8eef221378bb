/-
  Persisted reactions.

  A row has the event and the name of a reaction, which tell rows apart, its
  script, the JSON of its steps, and the second in which it was written.  A new
  row gets a number above those of all rows there.  The text of a script and of
  steps may be anything, since others may write rows too; such a row is there,
  but reading it fails.

  * `create`, `delete` and `get` work on one row, `forEvent` and `all` read many
    in order, `insertRaw` writes a row as it is;
  * `Row.reaction` is the reaction that a row holds.
-/
import Reactor.Json.Printer
import Reactor.Reaction
import Reactor.ServiceError
import Reactor.Word

namespace Reactor

/-- What a column holds. -/
inductive Cell where
  | text (s : String)
  | blob (bytes : ByteArray)
deriving DecidableEq

/-- A row. -/
structure Row where
  number : Nat
  event : String
  name : String
  script : Cell
  steps : Cell
  createdAt : Int
deriving DecidableEq

/-- All rows. -/
structure Storage where
  rows : List Row
deriving DecidableEq

/-- The text of a column with a place and a name. -/
def Cell.read (place : Nat) (column : String) : Cell → Except ServiceError String
  | .text s => .ok s
  | .blob _ =>
    .error (.storage ("Invalid column type Blob at index: " ++ toString place ++ ", name: " ++ column))

namespace Row

/-- The reaction that a row holds, its steps named. -/
def reaction (r : Row) : Except ServiceError Reaction := do
  let script ← r.script.read 2 "script"
  let text ← r.steps.read 3 "steps"
  let steps ← (Reaction.decodeSteps text).mapError .ofRead
  return Reaction.normalize ⟨r.name, r.event, script, steps⟩

/-- Whether a row has a key. -/
def isFor (r : Row) (event name : String) : Bool := r.event == event && r.name == name

/-- Whether a row of an event comes before another. -/
def isBefore (a b : Row) : Bool :=
  a.createdAt < b.createdAt || (a.createdAt == b.createdAt && a.number ≤ b.number)

/-- Whether a row comes before another, by event first. -/
def isBeforeByEvent (a b : Row) : Bool :=
  a.event < b.event || (a.event == b.event && a.isBefore b)

end Row

namespace Storage

/-- No rows. -/
def empty : Storage := ⟨[]⟩

/-- The number of rows. -/
def count (s : Storage) : Nat := s.rows.length

/-- The row with a key. -/
def find? (s : Storage) (event name : String) : Option Row := s.rows.find? (·.isFor event name)

/-- The number of the next row. -/
def nextNumber (s : Storage) : Nat := (s.rows.map (·.number)).foldl max 0 + 1

/-- Writes a row as it is; `none` if its key is taken. -/
def insertRaw (s : Storage) (event name : String) (script steps : Cell) (createdAt : Int) :
    Option Storage :=
  if (s.find? event name).isSome then none
  else some ⟨s.rows ++ [⟨s.nextNumber, event, name, script, steps, createdAt⟩]⟩

/-- The JSON of steps, as it is written. -/
def stepsText (r : Reaction) : String := (Reaction.stepsToJson r.steps).compress

/-- Writes a reaction in some second. -/
def create (s : Storage) (now : Int) (r : Reaction) : Except ServiceError Storage :=
  match s.insertRaw r.event r.name (.text r.script) (.text (stepsText r)) now with
  | some s => .ok s
  | none => .error (.conflict r.event r.name)

/-- Takes the row with a key away. -/
def delete (s : Storage) (event name : String) : Except ServiceError Storage :=
  if (s.find? event name).isSome then .ok ⟨s.rows.filter fun r => !r.isFor event name⟩
  else .error (.notFound event name)

/-- The reaction with a key, if there is one. -/
def get (s : Storage) (event name : String) : Except ServiceError (Option Reaction) :=
  match s.find? event name with
  | some r => r.reaction.map some
  | none => .ok none

/-- The reactions to an event, in the order in which they were written. -/
def forEvent (s : Storage) (event : String) : Except ServiceError (List Reaction) :=
  ((s.rows.filter (·.event == event)).mergeSort Row.isBefore).mapM Row.reaction

/-- All reactions, by event and then in the order in which they were written. -/
def all (s : Storage) : Except ServiceError (List Reaction) :=
  (s.rows.mergeSort Row.isBeforeByEvent).mapM Row.reaction

end Storage

end Reactor
