/-
  Databases.

  A database has a table of reactions, and a table of the versions that its form
  has gone through.  The table of reactions comes with the first version; opening
  a database makes what is not there yet.

  * `Tables.migrate` brings tables up to date, `Database.openWith?` opens them;
  * `Command` is what a database may be asked for, `Reply` what it answers;
    `Database.perform` gives the answer and the database after it.
-/
import Reactor.Storage

namespace Reactor

/-- The tables of a database, as far as they have been made. -/
structure Tables where
  versions? : Option (List Int)
  reactions? : Option Storage
deriving DecidableEq

namespace Tables

/-- A database without tables. -/
def blank : Tables := ⟨none, none⟩

/-- The newest version of some; zero if there is none. -/
def newest (versions : List Int) : Int := versions.max?.getD 0

/-- Makes the table of versions; and the table of reactions, with the first
    version, if that has not been reached. -/
def migrate (t : Tables) : Tables :=
  let versions := t.versions?.getD []
  if newest versions < 1 then
    ⟨some (if 1 ∈ versions then versions else versions ++ [1]), some (t.reactions?.getD .empty)⟩
  else { t with versions? := some versions }

end Tables

/-- An open database. -/
structure Database where
  versions : List Int
  reactions : Storage
deriving DecidableEq

/-- What a database may be asked for. -/
inductive Command where
  /-- writes a reaction in some second -/
  | create (now : Int) (r : Reaction)
  /-- writes a row as it is -/
  | insertRaw (event name : String) (script steps : Cell) (createdAt : Int)
  | delete (event name : String)
  | get (event name : String)
  | forEvent (event : String)
  | all
  | count
  /-- closes the database and opens it again -/
  | reopen

/-- What a database answers. -/
inductive Reply where
  | written (r : Except ServiceError Unit)
  | inserted (done : Bool)
  | found (r : Except ServiceError (Option Reaction))
  | listed (r : Except ServiceError (List Reaction))
  | counted (n : Nat)
  | opened (done : Bool)

namespace Database

/-- Opens a database; `none` if its table of reactions was lost, without which
    nothing works. -/
def openWith? (t : Tables) : Option Database :=
  match t.migrate with
  | ⟨some versions, some reactions⟩ => some ⟨versions, reactions⟩
  | _ => none

/-- A database that was opened for the first time. -/
def fresh : Database := ⟨[1], .empty⟩

/-- The tables of an open database. -/
def tables (d : Database) : Tables := ⟨some d.versions, some d.reactions⟩

/-- The database after a change of its reactions, which may fail. -/
def write (d : Database) (r : Except ServiceError Storage) : Reply × Database :=
  match r with
  | .ok s => (.written (.ok ()), { d with reactions := s })
  | .error e => (.written (.error e), d)

/-- Answers a command. -/
def perform (d : Database) : Command → Reply × Database
  | .create now r => d.write (d.reactions.create now r)
  | .insertRaw event name script steps createdAt =>
    match d.reactions.insertRaw event name script steps createdAt with
    | some s => (.inserted true, { d with reactions := s })
    | none => (.inserted false, d)
  | .delete event name => d.write (d.reactions.delete event name)
  | .get event name => (.found (d.reactions.get event name), d)
  | .forEvent event => (.listed (d.reactions.forEvent event), d)
  | .all => (.listed d.reactions.all, d)
  | .count => (.counted d.reactions.count, d)
  | .reopen =>
    match openWith? d.tables with
    | some d => (.opened true, d)
    | none => (.opened false, d)

/-- Answers commands one after the other. -/
def performAll (d : Database) : List Command → List Reply × Database
  | [] => ([], d)
  | c :: cs =>
    let (r, d) := d.perform c
    let (rs, d) := performAll d cs
    (r :: rs, d)

end Database

end Reactor
