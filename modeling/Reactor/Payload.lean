/-
  Typed reads of a payload.

  A field that is missing and one of another type are told apart; nothing is
  converted but integers to floats.

  * `Payload.require` is any value under a name; `str`, `integer`, `number`,
    `boolean`, `object` and `list` ask for a type;
  * `payloadOfJson` takes an object and nothing else.
-/
import Reactor.Decimal.Binary
import Reactor.Json.Value
import Reactor.Word

namespace Reactor

/-- Why a field cannot be read. -/
inductive PayloadError where
  | missing (field : String)
  | wrongType (field expected : String)
deriving DecidableEq, Repr

/-- What an error says. -/
def PayloadError.message : PayloadError → String
  | missing k => "Missing payload field: " ++ k
  | wrongType k t => "Payload field '" ++ k ++ "' is not a " ++ t

namespace Payload

/-- The value under a name. -/
def require (p : Payload) (k : String) : Except PayloadError Json :=
  match Fields.get? k p with
  | some j => .ok j
  | none => .error (.missing k)

/-- The value under a name, as `pick` takes it. -/
def read {α : Type} (p : Payload) (k expected : String) (pick : Json → Option α) :
    Except PayloadError α := do
  match pick (← p.require k) with
  | some a => .ok a
  | none => .error (.wrongType k expected)

/-- The text of a field. -/
def str (p : Payload) (k : String) : Except PayloadError String :=
  p.read k "string" fun | .str s => some s | _ => none

/-- An integer of 64 bits with a sign. -/
def integer (p : Payload) (k : String) : Except PayloadError Int :=
  p.read k "integer" fun | .int i => if Word.isSigned i then some i else none | _ => none

/-- Any number, as a float. -/
def number (p : Payload) (k : String) : Except PayloadError Float :=
  p.read k "number" fun | .int i => some (Decimal.ofInt i) | .float x => some x | _ => none

/-- The truth value of a field. -/
def boolean (p : Payload) (k : String) : Except PayloadError Bool :=
  p.read k "boolean" fun | .bool b => some b | _ => none

/-- The fields of a field. -/
def object (p : Payload) (k : String) : Except PayloadError Payload :=
  p.read k "object" fun | .obj fs => some fs | _ => none

/-- The elements of a field. -/
def list (p : Payload) (k : String) : Except PayloadError (List Json) :=
  p.read k "array" fun | .arr js => some js | _ => none

end Payload

/-- The payload that some JSON is. -/
def payloadOfJson : Json → Except PayloadError Payload
  | .obj fs => .ok fs
  | _ => .error (.wrongType "<root>" "object")

end Reactor
