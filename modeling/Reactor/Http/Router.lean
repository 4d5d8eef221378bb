/-
  Routes.

  * `Route.ofSegments?` finds the route of a path;
  * `answer` is the handler of a request: an unknown path, a method that a route
    does not have, a name that is no text, and a body that is too long, not
    declared as JSON, no JSON or of another form are refused before anything is
    called.
-/
import Reactor.Http.MediaType
import Reactor.Http.Reactions
import Reactor.Http.Target

namespace Reactor.Http

/-- The version that the service gives. -/
def version : String := "0.1.0"

/-- The longest body, in bytes. -/
def maxBody : Nat := 1024 * 1024

/-- A route, with the segments that it takes as they stand. -/
inductive Route where
  | health
  | reactions
  | actions
  | events
  | modules
  | stats
  | eventReactions (event : String)
  | reaction (event name : String)
  | dispatch (event : String)
deriving DecidableEq, Repr

/-- The route of a path; segments that it takes must not be empty. -/
def Route.ofSegments? : List String → Option Route
  | ["health"] => some .health
  | ["v1", "reactions"] => some .reactions
  | ["v1", "actions"] => some .actions
  | ["v1", "events"] => some .events
  | ["v1", "modules"] => some .modules
  | ["v1", "stats"] => some .stats
  | ["v1", "events", e, "reactions"] => if e = "" then none else some (.eventReactions e)
  | ["v1", "events", e, "reactions", n] => if e = "" ∨ n = "" then none else some (.reaction e n)
  | ["v1", "events", e, "dispatch"] => if e = "" then none else some (.dispatch e)
  | _ => none

namespace Handler

/-! ## What requests carry -/

/-- Goes on with the text of a segment. -/
def withSegment (name raw : String) (next : String → Handler) : Handler :=
  match decodeSegment raw with
  | some s => next s
  | none => .reply (.text 400 ("Invalid URL: Invalid UTF-8 in `" ++ name ++ "`"))

/-- Goes on with the value of a body that is JSON of some form. -/
def withBody (req : Request) (form : Json.Decoder Json) (next : Json → Handler) : Handler :=
  if !req.contentType?.any MediaType.isJson then
    .reply (.text 415 "Expected request with `Content-Type: application/json`")
  else if req.body.size > maxBody then
    .reply (.text 413 "Failed to buffer the request body: length limit exceeded")
  else
    match Json.decodeBytes form req.body with
    | .ok j => next j
    | .error (.shape m) =>
      .reply (.text 422 ("Failed to deserialize the JSON body into the target type: " ++ m))
    | .error _ => .reply (.text 400 "Failed to parse the request body as JSON")

/-- Goes on with the event that a query asks for. -/
def withEventFilter (query : String) (next : Option String → Handler) : Handler :=
  match (decodeForm query).filter (·.1 == "event") with
  | [] => next none
  | [(_, e)] => next (some e)
  | _ => .reply (.text 400 "Failed to deserialize query string: duplicate field `event`")

/-! ## Reading -/

/-- Answers with what the engine shows. -/
def show_ (look : Engine → Json) : Handler := .call (.view look) fun j => .reply (.json 200 j)

/-- The JSON of reactions. -/
def reactionsJson (rs : List Reaction) : Json := .arr (rs.map Reaction.toJson)

/-- The JSON of capabilities by module. -/
def capabilitiesJson (d : Fields (List Capability)) : Json :=
  .obj (d.map fun (k, cs) => (k, .arr (cs.map Capability.toJson)))

/-- The names of all modules. -/
def modulesJson (e : Engine) : Json :=
  .obj [("action_modules", Json.strs e.actions.names), ("event_sources", Json.strs e.sources.names)]

/-- How the service is. -/
def health : Handler :=
  .call .uptime fun seconds =>
    .call (.view fun e => e.store.size) fun n =>
      .reply (.json 200 (.obj [("status", .str "healthy"), ("version", .str version),
        ("uptime_secs", .nat seconds), ("active_reactions", .nat n)]))

/-- The persisted reactions. -/
def listReactions (event? : Option String) : Handler :=
  .call (.list event?) fun
    | .ok rs => .reply (.json 200 (reactionsJson rs))
    | .error e => .refuse (.ofService e)

/-- One active reaction. -/
def showReaction (event name : String) : Handler :=
  .call (.view fun e => e.store.get event name) fun
    | .ok r => .reply (.json 200 r.toJson)
    | .error e => .refuse (.ofStore e)

/-- Launches the pipelines of an event. -/
def dispatch (event : String) (data : Payload) : Handler :=
  .call (.launch ⟨event, data⟩) fun n =>
    .reply (.json 202 (.obj [("event", .str event), ("matched", .nat n)]))

end Handler

open Handler

/-- The handler of a request with a method other than `HEAD`; `none` if the
    route does not have the method. -/
def Route.handler? (route : Route) (req : Request) (query : String) : Option Handler :=
  match route, req.method with
  | .health, "GET" => some Handler.health
  | .reactions, "GET" => some (withEventFilter query listReactions)
  | .actions, "GET" => some (show_ fun e => capabilitiesJson e.describeActions)
  | .events, "GET" => some (show_ fun e => capabilitiesJson e.describeEvents)
  | .modules, "GET" => some (show_ modulesJson)
  | .stats, "GET" => some (show_ fun e => e.metrics.toJson)
  | .eventReactions e, "GET" =>
    some (withSegment "event" e fun e => show_ fun en => reactionsJson (en.store.matchesFor e))
  | .eventReactions e, "POST" =>
    some (withSegment "event" e fun e => withBody req Reaction.form fun j =>
      Reactions.create e (Reaction.ofJson j))
  | .reaction e n, "GET" =>
    some (withSegment "event" e fun e => withSegment "reaction" n fun n => showReaction e n)
  | .reaction e n, "DELETE" =>
    some (withSegment "event" e fun e => withSegment "reaction" n fun n => Reactions.delete e n)
  | .dispatch e, "POST" =>
    some (withSegment "event" e fun e => withBody req Json.Decoder.object fun
      | .obj data => Handler.dispatch e data
      | _ => Handler.dispatch e [])
  | _, _ => none

/-- The handler of a request.  `HEAD` is `GET` without the body. -/
def answer (req : Request) : Handler :=
  let target := Target.parse req.target
  let isHead := req.method == "HEAD"
  match Route.ofSegments? target.segments with
  | none => .reply (.bare 404)
  | some route =>
    match route.handler? (if isHead then { req with method := "GET" } else req) target.query with
    | none => .reply (.bare 405)
    | some h => if isHead then h.head else h

end Reactor.Http
