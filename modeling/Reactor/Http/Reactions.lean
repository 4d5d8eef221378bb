/-
  Creating and deleting reactions.

  A reaction is persisted first and then made active; if it cannot be made
  active, it is taken out of the storage again.  It is deleted the other way
  round: it is made inactive first, or found to linger in the storage, and then
  taken out.

  * `create` and `delete` are the handlers; what follows each of their calls has
    a name.
-/
import Reactor.Http.Access
import Reactor.Text.Blank

namespace Reactor.Http.Reactions

/-! ## Creating -/

/-- The first step that names no module or no action. -/
def incomplete? (r : Reaction) : Option (String × ActionStep) :=
  r.steps.find? fun (_, s) => s.module == "" || s.action == ""

/-- Why a reaction is refused, if it is. -/
def objection? (r : Reaction) : Option ApiError :=
  if Text.isBlank r.name then some (.badRequest "Reaction name must not be empty")
  else (incomplete? r).map fun (k, s) =>
    .badRequest ("Step '" ++ k ++ "' must name a module and an action (got module '" ++ s.module
      ++ "', action '" ++ s.action ++ "')")

/-- A reaction to another event, its steps named. -/
def boundTo (event : String) (r : Reaction) : Reaction := Reaction.normalize { r with event }

/-- What follows when a reaction was made active, or could not be. -/
def afterActivate (r : Reaction) : Except StoreError Unit → Handler
  | .ok _ => .reply (.json 201 r.toJson)
  | .error e => .call (.delete r.event r.name) fun _ => .refuse (.ofStore e)

/-- What follows when a reaction was persisted, or could not be. -/
def afterCreate (r : Reaction) : Except ServiceError Unit → Handler
  | .ok _ => .call (.activate r) (afterActivate r)
  | .error e => .refuse (.ofService e)

/-- Creates a reaction to an event. -/
def create (event : String) (r : Reaction) : Handler :=
  match objection? r with
  | some e => .refuse e
  | none => .call (.create (boundTo event r)) (afterCreate (boundTo event r))

/-! ## Deleting -/

/-- What follows when a reaction was taken out of the storage, or was not
    there. -/
def afterErase : Except ServiceError Unit → Handler
  | .ok _ => .reply (.bare 204)
  | .error (.notFound ..) => .reply (.bare 204)
  | .error e => .refuse (.ofService e)

/-- Takes a reaction out of the storage. -/
def erase (event name : String) : Handler := .call (.delete event name) afterErase

/-- What follows when an inactive reaction was looked for in the storage. -/
def afterFetch (event name : String) (e : StoreError) :
    Except ServiceError (Option Reaction) → Handler
  | .ok none => .refuse (.ofStore e)
  | .ok (some _) => erase event name
  | .error f => .refuse (.ofService f)

/-- What follows when a reaction was made inactive, or was not active. -/
def afterDeactivate (event name : String) : Except StoreError Unit → Handler
  | .ok _ => erase event name
  | .error (.duplicate e n) => .refuse (.ofStore (.duplicate e n))
  | .error e => .call (.fetch event name) (afterFetch event name e)

/-- Deletes a reaction. -/
def delete (event name : String) : Handler :=
  .call (.deactivate event name) (afterDeactivate event name)

end Reactor.Http.Reactions
