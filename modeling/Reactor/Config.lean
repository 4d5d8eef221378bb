/-
  The configuration of the service.

  It has six sections, each with defaults: what is logged, which modules are set
  up, where modules have their configurations from, where reactions are kept,
  the limits of scripts, and the management API.

  * `Config` is a configuration, and `Config.standard` the one by default;
  * `Config.problem?` is the first number that is too small, if there is one.
-/
import Reactor.Script.Limits

namespace Reactor

/-- How log lines are written. -/
inductive LogFormat where
  | text
  | json
deriving DecidableEq, Repr

/-- The word for a format of the log. -/
def LogFormat.word : LogFormat → String
  | text => "text"
  | json => "json"

/-- Where modules have their configurations from. -/
inductive ProviderKind where
  /-- files of a directory -/
  | localFiles
  /-- nowhere: all configurations are empty -/
  | nowhere
deriving DecidableEq, Repr

/-- The word for where the configurations of modules come from. -/
def ProviderKind.word : ProviderKind → String
  | localFiles => "localfiles"
  | nowhere => "none"

/-- Where reactions are kept. -/
inductive StorageKind where
  | sqlite
  | memory
deriving DecidableEq, Repr

/-- The word for a kind of storage. -/
def StorageKind.word : StorageKind → String
  | sqlite => "sqlite"
  | memory => "memory"

namespace Config

/-- Settings of the whole process. -/
structure General where
  logLevel : String := "info"
  logFormat : LogFormat := .text
  /-- how many events the queue holds -/
  bufferSize : Nat := 100
deriving DecidableEq, Repr

/-- The modules that are set up. -/
structure Modules where
  sources : List String := []
  actions : List String := []
deriving DecidableEq, Repr

/-- Where modules have their configurations from. -/
structure Provider where
  kind : ProviderKind := .localFiles
  path : String := "./modules.d"
deriving DecidableEq, Repr

/-- Where reactions are kept. -/
structure Persistence where
  kind : StorageKind := .sqlite
  path : String := "./data/reflex.db"
deriving DecidableEq, Repr

/-- The management API. -/
structure Api where
  enabled : Bool := true
  bindAddress : String := "127.0.0.1:8082"
deriving DecidableEq, Repr

end Config

/-- A configuration. -/
structure Config where
  general : Config.General := {}
  modules : Config.Modules := {}
  provider : Config.Provider := {}
  storage : Config.Persistence := {}
  script : Script.Limits := .standard
  api : Config.Api := {}
deriving DecidableEq, Repr

namespace Config

/-- The configuration by default. -/
def standard : Config := {}

/-- The least memory that scripts can be given: 1 MiB. -/
def leastMemory : Nat := 1024 * 1024

/-- A number that is too small. -/
inductive Problem where
  | bufferSize
  | instructions
  | memory
deriving DecidableEq, Repr

/-- What is said about a problem. -/
def Problem.message : Problem → String
  | bufferSize => "general.events_buffer_size must be at least 1"
  | instructions => "script.instruction_limit must be at least 1"
  | memory => "script.memory_limit must be at least 1 MiB"

/-- The first problem of a configuration. -/
def problem? (c : Config) : Option Problem :=
  if c.general.bufferSize = 0 then some .bufferSize
  else if c.script.instructions = 0 then some .instructions
  else if c.script.memory < leastMemory then some .memory
  else none

end Config

end Reactor
