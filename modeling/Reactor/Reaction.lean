/-
  Reactions.

  A reaction belongs to an event.  Its script picks the first of its steps, and
  the script of each step the next one.  The steps are kept by key, in
  ascending order; a step also has a name, which is its key unless it was given
  another one.

  * `withStep` adds a step under its name, or under a name made from the number
    of steps;
  * `normalize` names every step without a name after its key;
  * `key` is what tells reactions apart: the event and the name.
-/
import Reactor.Json.Decoder

namespace Reactor

/-- A step: an action of a module, and the script that decides what follows; an
    empty script ends the reaction. -/
structure ActionStep where
  name : String
  module : String
  action : String
  script : String
deriving DecidableEq, Repr, Inhabited

/-- A reaction to an event. -/
structure Reaction where
  name : String
  event : String
  script : String
  steps : Fields ActionStep
deriving DecidableEq, Repr, Inhabited

namespace ActionStep

/-- The JSON of a step. -/
def toJson (s : ActionStep) : Json :=
  .obj [("name", .str s.name), ("module", .str s.module), ("action", .str s.action),
    ("script", .str s.script)]

/-- The step whose fields an object holds. -/
def ofJson (j : Json) : ActionStep :=
  ⟨j.textAt "name", j.textAt "module", j.textAt "action", j.textAt "script"⟩

open Json.Decoder in
/-- The form of a step: its name and script may be missing. -/
def form : Json.Decoder Json :=
  record "struct ActionStep" [optional "name" (.str "") text, required "module" text,
    required "action" text, optional "script" (.str "") text]

/-- The step that a text holds. -/
def decode (s : String) : Except Json.ReadError ActionStep := (Json.decode form s).map ofJson

end ActionStep

namespace Reaction

/-- A reaction without steps. -/
def bare (name event script : String) : Reaction := ⟨name, event, script, []⟩

/-- What tells reactions apart. -/
def key (r : Reaction) : String × String := (r.event, r.name)

/-- The step under a key. -/
def step? (r : Reaction) (k : String) : Option ActionStep := Fields.get? k r.steps

/-- Adds a step under its name, in place of one there; one without a name is
    named after the number of steps. -/
def withStep (r : Reaction) (s : ActionStep) : Reaction :=
  let name := if s.name = "" then "step" ++ toString r.steps.length else s.name
  { r with steps := Fields.insert name { s with name } r.steps }

/-- Names every step without a name after its key. -/
def normalize (r : Reaction) : Reaction :=
  { r with steps := r.steps.map fun (k, s) => (k, if s.name = "" then { s with name := k } else s) }

/-- The JSON of steps. -/
def stepsToJson (steps : Fields ActionStep) : Json := .obj (steps.map fun (k, s) => (k, s.toJson))

/-- The steps that an object holds. -/
def stepsOfFields (fs : Fields Json) : Fields ActionStep :=
  fs.map fun (k, j) => (k, ActionStep.ofJson j)

/-- The JSON of a reaction. -/
def toJson (r : Reaction) : Json :=
  .obj [("name", .str r.name), ("event", .str r.event), ("script", .str r.script),
    ("steps", stepsToJson r.steps)]

/-- The reaction whose fields an object holds. -/
def ofJson (j : Json) : Reaction :=
  ⟨j.textAt "name", j.textAt "event", j.textAt "script", stepsOfFields (j.fieldsAt "steps")⟩

/-- The form of steps by key. -/
def stepsForm : Json.Decoder Json := .table ActionStep.form

open Json.Decoder in
/-- The form of a reaction: all but its name may be missing. -/
def form : Json.Decoder Json :=
  record "struct Reaction" [required "name" text, optional "event" (.str "") text,
    optional "script" (.str "") text, ⟨"steps", ["actions"], some (.obj []), stepsForm⟩]

/-- The reaction that a text holds. -/
def decode (s : String) : Except Json.ReadError Reaction := (Json.decode form s).map ofJson

/-- The steps that a text holds. -/
def decodeSteps (s : String) : Except Json.ReadError (Fields ActionStep) := do
  match ← Json.decode stepsForm s with
  | .obj fs => .ok (stepsOfFields fs)
  | _ => .ok []

end Reaction

end Reactor
