/-
  The modules that are always there.

  * the action module `dummy` answers with a fixed text, or with its input;
  * the source `onetime` sends one event, with the time of its setup;
  * the source `dummy` goes on sending random events.
-/
import Reactor.Engine.Registry
import Reactor.Json.Decoder

namespace Reactor.Builtin

/-! ## The action module -/

/-- The answer of `dummy_action`, which may be given a text. -/
def dummyAction (input : Payload) : Except ActionError Payload :=
  let answer : Payload := [("dummykey", .str "dummyvalue")]
  if (Fields.get? "dummy_string" input).isSome then
    match input.str "dummy_string" with
    | .ok _ => .ok answer
    | .error e => .error (.ofPayload e)
  else .ok answer

/-- The action module `dummy`. -/
def dummyModule : ActionModule where
  capabilities :=
    [⟨"dummy_action", [⟨"string", "dummy_string"⟩], [⟨"string", "dummykey"⟩]⟩,
      ⟨"echo", [⟨"object", "any"⟩], [⟨"object", "any"⟩]⟩]
  setup _ := .ok ()
  dispatch action input :=
    match action with
    | "dummy_action" => dummyAction input
    | "echo" => .ok input
    | other => .error (.unknownAction "dummy" other)

/-! ## The source of one event -/

/-- The source `onetime`. -/
def onetimeSource : EventSource where
  capabilities := [⟨"onetime", [⟨"timestamp string", "timestamp"⟩], []⟩]
  setup now _ := .sends [⟨"onetime", [("timestamp", .str now)]⟩]

/-! ## The source of random events -/

/-- The longest time between two events by default, in milliseconds. -/
def defaultInterval : Nat := 10000

open Json.Decoder in
/-- The form of the configuration of `dummy`. -/
def intervalForm : Json.Decoder Json :=
  record "struct DummySourceConfig" [optional "max_interval_ms" (.nat defaultInterval) natural]

/-- Space, tab, newline, form feed, carriage return. -/
def isBlankByte (b : UInt8) : Bool := b == 32 || b == 9 || b == 10 || b == 12 || b == 13

/-- Why a configuration of `dummy` is refused. -/
inductive IntervalError where
  | json (e : Json.ReadError)
  | zero
deriving DecidableEq

/-- The longest time between two events that bytes ask for; blanks ask for the
    default. -/
def parseInterval (bytes : ByteArray) : Except IntervalError Nat :=
  if bytes.toList.all isBlankByte then .ok defaultInterval
  else
    match Json.decodeBytes intervalForm bytes with
    | .error e => .error (.json e)
    | .ok j => if j.natAt "max_interval_ms" = 0 then .error .zero else .ok (j.natAt "max_interval_ms")

/-- What an error says; the text of one that is no JSON is left open. -/
def IntervalError.message : IntervalError → String
  | json (.shape m) => m
  | json _ => "<syntax>"
  | zero => "max_interval_ms must be greater than 0"

/-- A random event: its number, the time, another number, and which of the two
    events it is. -/
def randomEvent (id : UInt32) (now : String) (other : UInt32) (isFirst : Bool) : Event :=
  let data (k : String) : Payload :=
    Fields.ofList [("dummy_id", .nat id.toNat), ("dummy_date", .str now),
      (k, .str (toString other.toNat))]
  if isFirst then ⟨"dummy_event", data "dummy_host"⟩ else ⟨"dummy_event_2", data "dummy_string"⟩

/-- The source `dummy`. -/
def dummySource : EventSource where
  capabilities :=
    [⟨"dummy_event", [⟨"int", "dummy_id"⟩, ⟨"string", "dummy_date"⟩, ⟨"string", "dummy_host"⟩], []⟩,
      ⟨"dummy_event_2",
        [⟨"int", "dummy_id"⟩, ⟨"string", "dummy_date"⟩, ⟨"string", "dummy_string"⟩], []⟩]
  setup _ config :=
    match parseInterval config with
    | .ok n => ⟨[], .ok (), some n⟩
    | .error e => .fails (.invalidConfig e.message)

/-! ## Registering -/

/-- Registers the action module. -/
def addActions (r : Registry ActionModule) : Registry ActionModule :=
  (r.register "dummy" dummyModule).2

/-- Registers the sources. -/
def addSources (r : Registry EventSource) : Registry EventSource :=
  ((r.register "onetime" onetimeSource).2.register "dummy" dummySource).2

end Reactor.Builtin
