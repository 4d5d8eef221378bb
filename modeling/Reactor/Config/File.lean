/-
  The file of a configuration.

  * `form` is what a file must look like: sections and keys may be missing, and
    unknown ones are passed over;
  * `Config.ofText` reads a file, `Config.load` what became of reading one, with
    a check of the numbers;
  * `Config.render` writes all sections and keys.
-/
import Reactor.Config
import Reactor.ServiceError
import Reactor.Toml.Decoder
import Reactor.Toml.Reader
import Reactor.Toml.Writer
import Reactor.Word

namespace Reactor

/-- Why there is no configuration. -/
inductive ConfigError where
  /-- the file cannot be read -/
  | io (kind message : String)
  /-- it is no TOML -/
  | malformed
  /-- it is TOML, but a value has another form -/
  | shape (message : String)
  /-- a number is too small -/
  | invalid (p : Config.Problem)
deriving DecidableEq, Repr

/-- The fault of the service that an error is. -/
def ConfigError.toService : ConfigError → ServiceError
  | io kind m => .io kind m
  | malformed => .config "TOML parse error"
  | shape m => .config ("TOML parse error\n" ++ m)
  | invalid p => .config p.message

namespace Config

open Toml.Decoder

/-! ## Reading -/

/-- Numbers of 32 and of 64 bits, and what messages call them. -/
def natural32 : Toml.Decoder Nat := natural "u32" (Word.count 32)

/-- A number of 64 bits. -/
def natural64 : Toml.Decoder Nat := natural "usize" (Word.count 64)

/-- The form of the section `general`. -/
def generalForm : Toml.Decoder General :=
  record "GeneralConfig"
    [field "log_level" text fun x s => { s with logLevel := x },
      field "log_format" (choice LogFormat.word .text .json) fun x s => { s with logFormat := x },
      field "events_buffer_size" natural64 fun x s => { s with bufferSize := x }]
    {}

/-- The form of the section `modules`. -/
def modulesForm : Toml.Decoder Modules :=
  record "ModulesConfig"
    [field "event_sources" (list text) fun x s => { s with sources := x },
      field "action_modules" (list text) fun x s => { s with actions := x }]
    {}

/-- The form of the section `config_provider`. -/
def providerForm : Toml.Decoder Provider :=
  record "ConfigProviderConfig"
    [field "provider" (choice ProviderKind.word .localFiles .nowhere) fun x s => { s with kind := x },
      field "path" text fun x s => { s with path := x }]
    {}

/-- The form of the section `storage`. -/
def storageForm : Toml.Decoder Persistence :=
  record "StorageConfig"
    [field "provider" (choice StorageKind.word .sqlite .memory) fun x s => { s with kind := x },
      field "path" text fun x s => { s with path := x }]
    {}

/-- The form of the section `script`. -/
def scriptForm : Toml.Decoder Script.Limits :=
  record "ScriptConfig"
    [field "instruction_limit" natural32 fun x s => { s with instructions := x },
      field "memory_limit" natural64 fun x s => { s with memory := x }]
    .standard

/-- The form of the section `api`. -/
def apiForm : Toml.Decoder Api :=
  record "ApiConfig"
    [field "enabled" boolean fun x s => { s with enabled := x },
      field "bind_address" text fun x s => { s with bindAddress := x }]
    {}

/-- What a file must look like. -/
def form : Toml.Decoder Config :=
  record "ReflexConfig"
    [field "general" generalForm fun x s => { s with general := x },
      field "modules" modulesForm fun x s => { s with modules := x },
      field "config_provider" providerForm fun x s => { s with provider := x },
      field "storage" storageForm fun x s => { s with storage := x },
      field "script" scriptForm fun x s => { s with script := x },
      field "api" apiForm fun x s => { s with api := x }]
    {}

/-- The configuration that a text describes. -/
def ofText (s : String) : Except ConfigError Config :=
  match Toml.read s with
  | none => .error .malformed
  | some es => (form (.table .header es)).mapError .shape

/-- A configuration whose numbers are large enough. -/
def validate (c : Config) : Except ConfigError Config :=
  match c.problem? with
  | some p => .error (.invalid p)
  | none => .ok c

/-- The configuration that the bytes of a file describe. -/
def ofBytes (bytes : ByteArray) : Except ConfigError Config :=
  match String.fromUTF8? bytes with
  | some s => do (← ofText s).validate
  | none => .error (.io "InvalidData" "stream did not contain valid UTF-8")

/-! ## Writing -/

/-- The sections of a configuration with all keys. -/
def sections (c : Config) : List Toml.Writer.Section_ :=
  [⟨"general",
      [("log_level", .text c.general.logLevel),
        ("log_format", .text c.general.logFormat.word),
        ("events_buffer_size", .nat c.general.bufferSize)]⟩,
    ⟨"modules",
      [("event_sources", .texts c.modules.sources), ("action_modules", .texts c.modules.actions)]⟩,
    ⟨"config_provider",
      [("provider", .text c.provider.kind.word), ("path", .text c.provider.path)]⟩,
    ⟨"storage",
      [("provider", .text c.storage.kind.word), ("path", .text c.storage.path)]⟩,
    ⟨"script",
      [("instruction_limit", .nat c.script.instructions), ("memory_limit", .nat c.script.memory)]⟩,
    ⟨"api", [("enabled", .bool c.api.enabled), ("bind_address", .text c.api.bindAddress)]⟩]

/-- The text of a configuration. -/
def render (c : Config) : String := Toml.Writer.file c.sections

end Config

end Reactor
