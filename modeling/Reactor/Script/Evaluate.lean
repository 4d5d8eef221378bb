/-
  Evaluating a script.

  Every evaluation starts from a fresh heap, in which the globals `event` and
  `actionData` hold the data.  When the script has run, `err`, `nextAction` and
  `result` are read in this order, through the metamethods of the globals.

  * `evaluate` is the evaluation within limits on instructions and memory.
-/
import Reactor.Lua.Machine
import Reactor.Script.Binding
import Reactor.Script.Limits

namespace Reactor.Script

open Lua

/-- The name of a script in messages. -/
def scriptName : Bytes := "reaction".toUTF8

/-- Sets a global. -/
def setGlobal (h : Heap) (name : String) (v : Value) : Heap :=
  h.rawSet h.globals (.ofString name) v

/-- The value of the output of the step before; `nil` if there was none. -/
def seedPrior (h : Heap) : Option Payload → Value × Heap
  | some data => seed h (.obj data)
  | none => (.nil, h)

/-- The texts of the data. -/
def dataTexts (event : Payload) (prior : Option Payload) : List String :=
  texts (prior.elim [] fun data => texts [] (.obj data)) (.obj event)

/-- The heap with the data in its globals. -/
def seeded (l : Limits) (event : Payload) (prior : Option Payload) : Heap :=
  let h := (Heap.standard l.room).charge (textBytes (dataTexts event prior))
  let (e, h) := seed h (.obj event)
  let h := setGlobal h "event" e
  let (p, h) := seedPrior h prior
  let h := setGlobal h "actionData" p
  let h := setGlobal h "nextAction" (.ofString "")
  setGlobal h "err" (.ofString "")

/-- How many steps a machine is given: more than it takes in any time at
    hand. -/
def horizon : Nat := Nat.pow 10 15

/-- A machine that has run a computation after another machine has ended. -/
def goOn (m : Machine) (t : Lua.Task (Array Value)) : Machine :=
  let next : Machine := Machine.start m.heap m.budget t
  { next with left := m.left }.run horizon

/-- The result of a machine; one that has not ended in time has failed. -/
def outcome (m : Machine) : Except Fault (Array Value) :=
  m.result?.getD (.error (.value (.failure "out of time")))

/-- The text of a fault that no script has caught.  The host was told of it, and has
    made a text of all but its own faults. -/
def faultText : Fault → String
  | .memory => "memory error: " ++ Fault.memoryText
  | .value (.failure s) => "runtime error: " ++ s
  | e =>
    let v := e.toValue
    "runtime error: " ++ Text.Utf8.lossy (Operation.plainDisplay v.typeName.toUTF8 v)

/-- Reads a global through the metamethods of the globals. -/
def readGlobal (m : Machine) (name : String) : Machine × Except ContractFault Value :=
  let m := goOn m do
    return #[← Operation.index (.table m.heap.globals) (.ofString name) none]
  match outcome m with
  | .ok vs => (m, .ok (vs.getD 0 .nil))
  | .error e => (m, .error (.unreadable name (faultText e)))

/-- Reads a global that must be a text; `nil` is the empty one. -/
def readText (m : Machine) (name : String) : Machine × Except ContractFault String :=
  let (m, v) := readGlobal m name
  (m, match v with
    | .error f => .error f
    | .ok .nil => .ok ""
    | .ok (.str s) =>
      match Text.Utf8.decode s with
      | .ok t => .ok t
      | .error f => .error (.notText name f)
    | .ok v => .error (.notString name (typeName v)))

/-- The decision that a script has left. -/
def decisionOf (m : Machine) : Except ScriptError Decision := do
  let (m, err) := readText m "err"
  let err ← err.mapError ContractFault.toError
  if err ≠ "" then throw (.declared err)
  let (m, next) := readText m "nextAction"
  let next ← next.mapError ContractFault.toError
  if next = "" then return .stop
  let (m, result) := readGlobal m "result"
  let result ← result.mapError ContractFault.toError
  return .continue_ next (← (resultInput m.heap next result).mapError ContractFault.toError)

/-- Runs the main function of a script on a heap. -/
def runMain (l : Limits) (h : Heap) (proto : Proto) : Machine :=
  (Machine.start h l.instructions do
    let f ← Library.instantiate proto (.table h.globals)
    Lua.Task.call f #[] none).run horizon

/-- Evaluates a script within limits. -/
def evaluate (limits : Limits) : Evaluator := fun event prior source => do
  let l := limits.effective
  let h := seeded l event prior
  if h.used > h.limit then throw (.binding ("memory error: " ++ Fault.memoryText))
  match parse 0 source.toUTF8 with
  | .error (.message line text) =>
    throw (.runtime ("syntax error: " ++ Text.Utf8.lossy
      (scriptName ++ (":" ++ toString line ++ ": ").toUTF8 ++ text)))
  | .error .tooDeep => throw (.runtime "runtime error: C stack overflow")
  | .ok program =>
    let m := runMain l h (compile scriptName program)
    match outcome m with
    | .error e => throw (.runtime (faultText e))
    | .ok _ => decisionOf m

end Reactor.Script
