/-
  Events: a name and the data that comes with it.
-/
import Reactor.Json.Decoder

namespace Reactor

/-- An event. -/
structure Event where
  name : String
  data : Payload
deriving Inhabited

namespace Event

/-- The JSON of an event. -/
def toJson (e : Event) : Json := .obj [("name", .str e.name), ("data", .obj e.data)]

/-- The event whose fields an object holds. -/
def ofJson (j : Json) : Event := ⟨j.textAt "name", j.fieldsAt "data"⟩

open Json.Decoder in
/-- The form of an event: its data may be missing. -/
def form : Json.Decoder Json :=
  record "struct Event" [required "name" text, optional "data" (.obj []) object]

/-- The event that a text holds. -/
def decode (s : String) : Except Json.ReadError Event := (Json.decode form s).map ofJson

end Event

end Reactor
