/-
  What modules can do: the actions they offer and the events they send, with
  the arguments that these take and give.
-/
import Reactor.Json.Decoder

namespace Reactor

/-- An argument: its type and its name, for a reader. -/
structure Argument where
  type : String
  name : String
deriving DecidableEq, Repr, Inhabited

/-- An action or an event of a module. -/
structure Capability where
  name : String
  input : List Argument
  output : List Argument
deriving DecidableEq, Repr, Inhabited

namespace Argument

/-- The JSON of an argument. -/
def toJson (a : Argument) : Json := .obj [("type", .str a.type), ("name", .str a.name)]

/-- The argument whose fields an object holds. -/
def ofJson (j : Json) : Argument := ⟨j.textAt "type", j.textAt "name"⟩

open Json.Decoder in
/-- The form of an argument. -/
def form : Json.Decoder Json :=
  record "struct ArgumentDescriptor" [required "type" text, required "name" text]

/-- The argument that a text holds. -/
def decode (s : String) : Except Json.ReadError Argument := (Json.decode form s).map ofJson

end Argument

namespace Capability

/-- The JSON of a capability. -/
def toJson (c : Capability) : Json :=
  .obj [("name", .str c.name), ("data_in", .arr (c.input.map Argument.toJson)),
    ("data_out", .arr (c.output.map Argument.toJson))]

/-- The capability whose fields an object holds. -/
def ofJson (j : Json) : Capability :=
  ⟨j.textAt "name", (j.itemsAt "data_in").map Argument.ofJson,
    (j.itemsAt "data_out").map Argument.ofJson⟩

open Json.Decoder in
/-- The form of a capability. -/
def form : Json.Decoder Json :=
  record "struct Capability" [required "name" text, required "data_in" (list Argument.form),
    required "data_out" (list Argument.form)]

/-- The capability that a text holds. -/
def decode (s : String) : Except Json.ReadError Capability := (Json.decode form s).map ofJson

end Capability

end Reactor
