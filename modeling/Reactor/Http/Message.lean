/-
  Requests and responses.

  A request has a method, a target, the type of its body, and the body.  A
  response has a status and a body, which is JSON, a plain text, or nothing.

  * `ApiError` is a refusal, with a code and a message in its JSON;
  * `ofService` and `ofStore` say which refusal a fault becomes.
-/
import Reactor.Engine.Error
import Reactor.ServiceError

namespace Reactor.Http

/-- A request. -/
structure Request where
  method : String
  /-- path and query -/
  target : String
  contentType? : Option String
  body : ByteArray

/-- What a response carries. -/
inductive Body where
  | empty
  | json (j : Json)
  | text (s : String)

/-- A response. -/
structure Response where
  status : Nat
  body : Body

namespace Response

/-- A status alone. -/
def bare (status : Nat) : Response := ⟨status, .empty⟩

/-- A response that carries a value. -/
def json (status : Nat) (j : Json) : Response := ⟨status, .json j⟩

/-- A response that carries a text. -/
def text (status : Nat) (s : String) : Response := ⟨status, .text s⟩

/-- A response without its body. -/
def head (r : Response) : Response := ⟨r.status, .empty⟩

end Response

/-- A refusal. -/
inductive ApiError where
  | badRequest (message : String)
  | notFound (message : String)
  | conflict (message : String)
  | internal (message : String)
deriving DecidableEq, Repr

namespace ApiError

/-- The status of the response to an error. -/
def status : ApiError → Nat
  | badRequest _ => 400
  | notFound _ => 404
  | conflict _ => 409
  | internal _ => 500

/-- The word for a refusal. -/
def code : ApiError → String
  | badRequest _ => "bad_request"
  | notFound _ => "not_found"
  | conflict _ => "conflict"
  | internal _ => "internal_error"

/-- What an error says. -/
def message : ApiError → String
  | badRequest m | notFound m | conflict m | internal m => m

/-- The response to what is refused. -/
def response (e : ApiError) : Response :=
  .json e.status (.obj [("error", .str e.code), ("message", .str e.message)])

/-- The refusal that a fault of the service becomes. -/
def ofService (e : ServiceError) : ApiError :=
  match e with
  | .conflict .. => .conflict e.message
  | .notFound .. => .notFound e.message
  | .config m => .badRequest m
  | _ => .internal e.message

/-- The refusal that a fault of the store becomes. -/
def ofStore (e : StoreError) : ApiError :=
  match e with
  | .duplicate .. => .conflict e.message
  | _ => .notFound e.message

end ApiError

end Reactor.Http
