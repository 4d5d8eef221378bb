/-
  Decisions of a script.

  A script reads the event and the output of the step before, and decides
  whether the pipeline stops or goes on with a step and its input.  It may
  also report an error, fail while it runs, or leave something that is no
  decision.

  * `Decision` is what a script decides, `ScriptError` what else can happen;
  * `ContractFault` lists what keeps the bindings from being a decision;
  * `Evaluator` is anything that evaluates scripts.
-/
import Reactor.Json.Value
import Reactor.Json.Printer
import Reactor.Text.Utf8

namespace Reactor

/-- What a script decides. -/
inductive Decision where
  | stop
  | continue_ (next : String) (input : Payload)
deriving Inhabited

/-- Why the bindings that a script leaves are no decision. -/
inductive ContractFault where
  /-- reading a binding fails -/
  | unreadable (name message : String)
  /-- a binding is no string -/
  | notString (name type : String)
  /-- a binding is no text -/
  | notText (name : String) (fault : Text.Utf8.Fault)
  /-- a next step without a result -/
  | noResult (next : String)
  | notTable (type : String)
  /-- the result is a list -/
  | notObject
  | tooDeep
  | notFinite (x : Float)
  | stringNotText (fault : Text.Utf8.Fault)
  | keyNotText (fault : Text.Utf8.Fault)
  | badKey (type : String)
  | mixedKeys
  | sparseList
  | badValue (type : String)
deriving Inhabited

/-- How deep the tables of a result may nest. -/
def maxResultDepth : Nat := 64

/-- What a fault in a text says about the string that holds it. -/
def notTextMessage (f : Text.Utf8.Fault) : String :=
  "error converting Lua string to &str (" ++ f.message ++ ")"

/-- A number that no JSON text stands for. -/
def notFiniteText (x : Float) : String :=
  match Decimal.parts x with
  | .nan => "NaN"
  | .infinite negative => if negative then "-inf" else "inf"
  | .finite _ => Json.floatText x

/-- What a fault says. -/
def ContractFault.message : ContractFault → String
  | unreadable name m => "cannot read '" ++ name ++ "': " ++ m
  | notString name t => "'" ++ name ++ "' is a " ++ t ++ ", expected a string"
  | notText name f => "'" ++ name ++ "' is not valid UTF-8: " ++ notTextMessage f
  | noResult next => "nextAction '" ++ next ++ "' set without a 'result' table"
  | notTable t => "'result' is a " ++ t ++ ", expected a table"
  | notObject => "'result' is not an object"
  | tooDeep => "'result' nests deeper than " ++ toString maxResultDepth ++ " tables"
  | notFinite x => "'result' holds non-finite number " ++ notFiniteText x
  | stringNotText f => "'result' string is not valid UTF-8: " ++ notTextMessage f
  | keyNotText f => "'result' key is not valid UTF-8: " ++ notTextMessage f
  | badKey t => "'result' has a " ++ t ++ " key"
  | mixedKeys => "'result' mixes sequence and named keys"
  | sparseList => "'result' has a sparse sequence"
  | badValue t => "'result' holds a " ++ t

/-- Why a script gives no decision. -/
inductive ScriptError where
  /-- it cannot be compiled, or fails while it runs -/
  | runtime (message : String)
  /-- it reports an error of its own -/
  | declared (message : String)
  /-- what it leaves is no decision -/
  | contract (message : String)
  /-- the data cannot be handed to it -/
  | binding (message : String)
deriving DecidableEq, Repr, Inhabited

/-- A fault in the bindings as an error. -/
def ContractFault.toError (f : ContractFault) : ScriptError := .contract f.message

/-- What an error is about, without its kind. -/
def ScriptError.content : ScriptError → String
  | runtime m | declared m | contract m | binding m => m

/-- What an error says. -/
def ScriptError.message : ScriptError → String
  | runtime m => "Script runtime error: " ++ m
  | declared m => "Script reported error: " ++ m
  | contract m => "Script contract violation: " ++ m
  | binding m => "Script binding error: " ++ m

/-- Evaluates a script on the data of an event and the output of the step
    before, if there was one. -/
abbrev Evaluator := Payload → Option Payload → String → Except ScriptError Decision

end Reactor
