/-
  What can go wrong around the engine: in the configuration, in the storage, in
  files.
-/
import Reactor.Json.Reader

namespace Reactor

/-- A fault of the service. -/
inductive ServiceError where
  | config (message : String)
  | storage (message : String)
  | conflict (event name : String)
  | notFound (event name : String)
  | io (kind message : String)
  | serialization (message : String)
deriving DecidableEq, Repr, Inhabited

namespace ServiceError

/-- What a fault says. -/
def message : ServiceError → String
  | config m => "Configuration error: " ++ m
  | storage m => "Storage error: " ++ m
  | conflict e n => "Reaction already exists: " ++ e ++ "/" ++ n
  | notFound e n => "Reaction not found: " ++ e ++ "/" ++ n
  | io _ m => "I/O error: " ++ m
  | serialization m => "Serialization error: " ++ m

/-- The text for JSON that cannot be read at all. -/
def noJson : String := "<syntax>"

/-- A text that is not the JSON that was asked for. -/
def ofRead : Json.ReadError → ServiceError
  | .shape m => .serialization m
  | _ => .serialization noJson

end ServiceError

end Reactor
