/-
  Starting the service.

  The configuration is that of its file, changed by the command line.  A file
  that was asked for must be there and be right; without one, or if the
  configuration is to be written, a file that is missing or wrong stands for the
  default.  Then the configuration is written, or the service opens its storage,
  lists the reactions in it, and serves until it is told to stop.

  * `Files` is what a start needs of the file system, `Disk` adds the storage;
    `Folder.diskWith` has the files of a folder and any storage;
  * `Folder.disk` has the storage that the files show: `openStorage` takes a file
    that starts as a database for one that can be read;
  * `configure` is the configuration of a start;
  * `start` is a start, and `Session.stop` the end of a service that serves.
-/
import Reactor.CommandLine
import Reactor.Config.File
import Reactor.Engine.Queue
import Reactor.Folder
import Reactor.Http.Listen
import Reactor.Log

namespace Reactor

/-- What a start needs of the file system. -/
structure Files (m : Type → Type) where
  read : String → m (Except FileError ByteArray)
  isThere : String → m Bool
  makeParents : String → m (Except FileError Unit)
  write : String → ByteArray → m (Except FileError Unit)

/-- What becomes of the storage, with the lines that are logged. -/
inductive Opening where
  /-- it cannot be opened -/
  | closed
  /-- its reactions cannot be listed -/
  | unreadable (lines : List Log.Line)
  | opened (lines : List Log.Line)

/-- Whether a service can go on with its storage. -/
def Opening.isOpen : Opening → Bool
  | opened _ => true
  | closed | unreadable _ => false

/-- What a start needs of the world around it. -/
structure Disk (m : Type → Type) extends Files m where
  openStorage : Config.Persistence → m Opening

/-- Does something with a folder that may fail and then leaves it as it was. -/
def Folder.attempt (act : Folder → Except FileError Folder) :
    StateM Folder (Except FileError Unit) := fun f =>
  match act f with
  | .ok f => (.ok (), f)
  | .error e => (.error e, f)

/-- The file system of a folder. -/
def Folder.fileSystem : Files (StateM Folder) where
  read path := fun f => (f.read path, f)
  isThere path := fun f => (f.isThere path, f)
  makeParents path := attempt (·.makeParents path)
  write path bytes := attempt (·.write path bytes)

/-- A folder beside any storage. -/
def Folder.diskWith (openStorage : Config.Persistence → StateM Folder Opening) :
    Disk (StateM Folder) :=
  { Folder.fileSystem with openStorage }

namespace Startup

open CommandLine

/-- The version of the service. -/
def version : String := "0.1.0"

/-- What the environment says. -/
structure Environment where
  /-- the file of the configuration -/
  config? : Option String := none
  /-- which log lines are written -/
  log? : Option String := none
deriving DecidableEq, Repr

/-- What is seen of a run that has ended. -/
structure Report where
  exit : Nat
  output : List String := []
  errors : List String := []
  logFormat : LogFormat := .text
  log : List Log.Line := []
deriving DecidableEq, Repr

/-- A service that serves. -/
structure Session where
  config : Config
  rules : Log.Rules
  /-- the lines written so far -/
  log : List Log.Line

/-- What becomes of a start. -/
inductive Start where
  | ended (r : Report)
  | serving (s : Session)

variable {m : Type → Type} [Monad m]

/-! ## Configuration -/

/-- The configuration in a file. -/
def load (d : Disk m) (path : String) : m (Except ConfigError Config) := do
  match ← d.read path with
  | .ok bytes => return Config.ofBytes bytes
  | .error e => return .error (.io e.kind e.message)

/-- The configuration in a file, or the default if it is missing or wrong. -/
def loadOrDefault (d : Disk m) (path : String) : m Config := do
  match ← load d path with
  | .ok c => return c
  | .error _ => return .standard

/-- The configuration of a start. -/
def configure (d : Disk m) (a : Arguments) (env : Environment) : m (Except ConfigError Config) := do
  let path := a.path env.config?
  if a.isExplicit env.config? && !a.writeConfig then
    return (← load d path).map a.override
  else if ← d.isThere path then return .ok (a.override (← loadOrDefault d path))
  else return .ok (a.override .standard)

/-- Writes a configuration to a file, for which folders are made. -/
def save (d : Disk m) (c : Config) (path : String) : m (Except FileError Unit) := do
  match ← d.makeParents path with
  | .ok () => d.write path c.render.toUTF8
  | .error e => return .error e

/-! ## Log -/

/-- The line of a part of the service. -/
def line (severity : Log.Severity) (source text : String) : Log.Line := ⟨severity, source, text⟩

/-- A line of the program itself. -/
def said (text : String) : Log.Line := line .info "reflex" text

/-- What is logged when rows can be kept, with the file that holds them. -/
def storageLines (file? : Option String) : List Log.Line :=
  (file?.map fun path => line .info "reflex_storage::db" ("Database opened at " ++ path)).toList
    ++ [line .info "reflex_storage::migrations" "Applied migration v1: reactions",
      line .info "reflex_engine::engine" "Reaction store seeded"]

/-- The rules for the log: those of the environment, if they can be read, else
    those of the configuration. -/
def rules (env : Environment) (c : Config) : Log.Rules :=
  (env.log?.bind Log.Rules.ofText?).getD (.lenient c.general.logLevel)

/-! ## Storage -/

/-- Whether the bytes of a file can be those of a database: it is new, or starts as
    one does. -/
def isDatabase (bytes : ByteArray) : Bool :=
  bytes.isEmpty || "SQLite format 3\x00".toUTF8.toList.isPrefixOf bytes.toList

/-- Opens the file of a database, and makes it if it is not there. -/
def openDatabase (d : Files m) (path : String) : m Bool := do
  if path = "" ∨ path = ":memory:" then return true
  match ← d.makeParents path with
  | .error _ => return false
  | .ok () =>
    match ← d.read path with
    | .ok bytes => return isDatabase bytes
    | .error .notFound => return (← d.write path .empty).isOk
    | .error _ => return false

/-- Opens the storage in some files, as far as they show what it holds. -/
def openStorage (d : Files m) (s : Config.Persistence) : m Opening := do
  match s.kind with
  | .memory => return .opened (storageLines none)
  | .sqlite =>
    return if ← openDatabase d s.path then .opened (storageLines (some s.path)) else .closed

/-! ## Starting -/

/-- A run that ended with some lines. -/
def reportOf (c : Config) (rs : Log.Rules) (exit : Nat) (log : List Log.Line) : Report where
  exit := exit
  logFormat := c.general.logFormat
  log := log.filter rs.pass

/-- Starts to serve with a configuration. -/
def serve (d : Disk m) (env : Environment) (c : Config) : m Start := do
  let rs := rules env c
  let first := said ("Starting Reflex v" ++ version)
  match ← d.openStorage c.storage with
  | .closed =>
    let last := line .error "reflex" "Failed to open reaction storage"
    return .ended (reportOf c rs 1 [first, last])
  | .unreadable lines => return .ended (reportOf c rs 1 (first :: lines))
  | .opened lines =>
    let log := first :: lines
    if (Queue.new? c.general.bufferSize).isNone then return .ended (reportOf c rs 101 log)
    else if !c.api.enabled then
      return .serving ⟨c, rs, log ++ [said "Management API disabled"]⟩
    else
      let address := c.api.bindAddress
      let log := log ++ [line .info "reflex_api::routes" ("Starting API server on " ++ address)]
      match Http.listen address with
      | .ok () => return .serving ⟨c, rs, log⟩
      | .error _ =>
        return .ended (reportOf c rs 1 (log ++ [line .error "reflex" "API server failed"]))

/-- Writes a configuration and ends. -/
def writeOut (d : Disk m) (c : Config) (path : String) : m Report := do
  match ← save d c path with
  | .ok () => return { exit := 0, output := ["Wrote " ++ path] }
  | .error e => return { exit := 1, errors := ["Error: Io(" ++ e.kind ++ ")"] }

/-- What is seen when a command line is not carried out. -/
def refusal (e : ArgumentError) : Report :=
  match e with
  | .displayHelp => { exit := e.exit, output := usage }
  | .displayVersion => { exit := e.exit, output := ["reflex " ++ version] }
  | e => { exit := e.exit, errors := ["error: " ++ e.message] }

/-- A start with some arguments. -/
def start (d : Disk m) (args : List String) (env : Environment) : m Start := do
  match parse args with
  | .error e => return .ended (refusal e)
  | .ok a =>
    match ← configure d a env with
    | .error e => return .ended { exit := 1, errors := ["reflex: " ++ e.toService.message] }
    | .ok c =>
      if a.writeConfig then return .ended (← writeOut d c (a.path env.config?))
      else serve d env c

namespace Session

/-- The lines of a service that is told to stop. -/
def closing (s : Session) : List Log.Line :=
  said "Shutdown signal received"
    :: (if s.config.api.enabled then [line .info "reflex_api::routes" "API server stopped"] else [])
    ++ [said "Reflex stopped"]

/-- What is seen of a service that was told to stop. -/
def stop (s : Session) : Report := reportOf s.config s.rules 0 (s.log ++ s.closing)

end Session

end Startup

/-- A folder with the storage in its files. -/
def Folder.disk : Disk (StateM Folder) :=
  diskWith (Startup.openStorage fileSystem)

end Reactor
