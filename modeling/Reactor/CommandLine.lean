/-
  The command line.

  An option has a value, which stands in the next argument or, after an equals
  sign or right after a letter, in the same one; a switch has none.  An option
  takes its value in when something else is asked for, so a wrong value counts
  only then.

  * `Arguments` is what a command line asks for, `parse` reads it;
  * `ArgumentError` is why a command line is not carried out; asking for help or
    for the version is one of them;
  * `Arguments.path` is the file of the configuration, `Arguments.override`
    changes a configuration as the command line says.
-/
import Reactor.Config

namespace Reactor.CommandLine

/-- What takes a value. -/
inductive Setting where
  | config
  | logLevel
  | logFormat
  | bind
deriving DecidableEq, Repr

/-- What takes none. -/
inductive Switch where
  | noApi
  | writeConfig
  | help
  | version
deriving DecidableEq, Repr

/-- What a name stands for. -/
inductive Name where
  | setting (s : Setting)
  | switch (s : Switch)
deriving DecidableEq, Repr

/-- What a long name stands for. -/
def long? : String → Option Name
  | "config" => some (.setting .config)
  | "log-level" => some (.setting .logLevel)
  | "log-format" => some (.setting .logFormat)
  | "bind" => some (.setting .bind)
  | "no-api" => some (.switch .noApi)
  | "write-config" => some (.switch .writeConfig)
  | "help" => some (.switch .help)
  | "version" => some (.switch .version)
  | _ => none

/-- What a letter stands for. -/
def letter? : Char → Option Name
  | 'c' => some (.setting .config)
  | 'l' => some (.setting .logLevel)
  | 'b' => some (.setting .bind)
  | 'h' => some (.switch .help)
  | 'V' => some (.switch .version)
  | _ => none

/-- Why a command line is not carried out. -/
inductive ArgumentError where
  | displayHelp
  | displayVersion
  | unknownArgument
  /-- a value is wrong or missing -/
  | invalidValue
  /-- something is given twice -/
  | argumentConflict
  /-- a switch has a value -/
  | tooManyValues
deriving DecidableEq, Repr

/-- The status with which the program ends. -/
def ArgumentError.exit : ArgumentError → Nat
  | displayHelp | displayVersion => 0
  | _ => 2

/-- What an error says. -/
def ArgumentError.message : ArgumentError → String
  | displayHelp => "help was asked for"
  | displayVersion => "the version was asked for"
  | unknownArgument => "an argument is unknown"
  | invalidValue => "a value is missing or wrong"
  | argumentConflict => "an option is given twice"
  | tooManyValues => "a switch has a value"

/-- The help for the command line. -/
def usage : List String :=
  ["Usage: reflex [OPTIONS]",
    "  -c, --config <PATH>      the file of the configuration",
    "  -l, --log-level <LEVEL>  trace, debug, info, warn or error",
    "      --log-format <FORM>  text or json",
    "  -b, --bind <ADDRESS>     the address of the management API",
    "      --no-api             does not start the management API",
    "      --write-config       writes the configuration and ends",
    "  -h, --help               prints this help",
    "  -V, --version            prints the version"]

/-- What a command line asks for. -/
structure Arguments where
  config? : Option String := none
  logLevel? : Option String := none
  logFormat? : Option LogFormat := none
  bind? : Option String := none
  noApi : Bool := false
  writeConfig : Bool := false
deriving DecidableEq, Repr

/-! ## Taking in -/

/-- Puts a value where there is none. -/
def once {α : Type} (there : Option α) (new? : Option α) : Except ArgumentError (Option α) :=
  if there.isSome then .error .argumentConflict
  else match new? with
    | some a => .ok (some a)
    | none => .error .invalidValue

/-- The format that a word stands for. -/
def format? (s : String) : Option LogFormat :=
  if s = LogFormat.text.word then some .text
  else if s = LogFormat.json.word then some .json
  else none

/-- Takes in the value of a setting. -/
def Arguments.set (a : Arguments) (s : Setting) (value : String) :
    Except ArgumentError Arguments := do
  match s with
  | .config =>
    return { a with config? := ← once a.config? (if value = "" then none else some value) }
  | .logLevel => return { a with logLevel? := ← once a.logLevel? (some value) }
  | .logFormat => return { a with logFormat? := ← once a.logFormat? (format? value) }
  | .bind => return { a with bind? := ← once a.bind? (some value) }

/-- Takes in a switch. -/
def Arguments.turn (a : Arguments) : Switch → Except ArgumentError Arguments
  | .noApi => if a.noApi then .error .argumentConflict else .ok { a with noApi := true }
  | .writeConfig =>
    if a.writeConfig then .error .argumentConflict else .ok { a with writeConfig := true }
  | .help => .error .displayHelp
  | .version => .error .displayVersion

/-- A setting that has not been taken in, with its value if that was there. -/
abbrev Pending := Option (Setting × Option String)

/-- Takes in the setting that has not been taken in. -/
def Arguments.settle (a : Arguments) : Pending → Except ArgumentError Arguments
  | none => .ok a
  | some (_, none) => .error .invalidValue
  | some (s, some value) => a.set s value

/-! ## Parsing -/

/-- The kind of an argument. -/
inductive Shape where
  /-- two dashes, after which all arguments are plain -/
  | end_
  /-- a long name, perhaps with a value -/
  | long (name : String) (value? : Option String)
  /-- a letter, and what follows it -/
  | letter (c : Char) (rest : List Char)
  | plain
deriving DecidableEq, Repr

/-- The kind of an argument. -/
def shape (arg : String) : Shape :=
  match arg.toList with
  | ['-', '-'] => .end_
  | '-' :: '-' :: cs =>
    .long (String.ofList (cs.takeWhile (· ≠ '=')))
      (match cs.dropWhile (· ≠ '=') with
        | [] => none
        | _ :: v => some (String.ofList v))
  | '-' :: c :: r => .letter c r
  | _ => .plain

/-- The value right after a letter. -/
def attached? : List Char → Option String
  | [] => none
  | '=' :: v => some (String.ofList v)
  | v => some (String.ofList v)

/-- Takes in a name, perhaps with a value; with the setting that is left open. -/
def Arguments.take (a : Arguments) (p : Pending) (name? : Option Name) (value? : Option String) :
    Except ArgumentError (Arguments × Pending) := do
  match name?, value? with
  | none, _ => .error .unknownArgument
  | some (.switch _), some _ => .error .tooManyValues
  | some (.switch s), none => return (← (← a.settle p).turn s, none)
  | some (.setting s), some value => return (← (← a.settle p).set s value, none)
  | some (.setting s), none => return (← a.settle p, some (s, none))

/-- What remains of a command line asks for. -/
def parseFrom (a : Arguments) (p : Pending) : List String → Except ArgumentError Arguments
  | [] => a.settle p
  | arg :: rest =>
    match shape arg, p with
    | .end_, _ => if rest.isEmpty then a.settle p else .error .unknownArgument
    | .long name value?, _ => do
      let (a, p) ← a.take p (long? name) value?
      parseFrom a p rest
    | .letter c r, _ => do
      -- a switch does not look at what follows its letter
      let value? := match letter? c with
        | some (.switch _) => none
        | _ => attached? r
      let (a, p) ← a.take p (letter? c) value?
      parseFrom a p rest
    | .plain, some (s, none) => parseFrom a (some (s, some arg)) rest
    | .plain, _ => .error .unknownArgument

/-- What a command line asks for; the name of the program is not part of it. -/
def parse (args : List String) : Except ArgumentError Arguments := parseFrom {} none args

/-! ## Configuration -/

/-- The file of the configuration by default. -/
def defaultPath : String := "reflex.toml"

namespace Arguments

/-- The file of the configuration: the one of the command line, else that of the
    environment, else the one by default. -/
def path (a : Arguments) (env? : Option String) : String :=
  (a.config? <|> env?).getD defaultPath

/-- Whether the file of the configuration was asked for. -/
def isExplicit (a : Arguments) (env? : Option String) : Bool :=
  a.config?.isSome || env?.isSome

/-- A configuration, changed as the command line says. -/
def override (a : Arguments) (c : Config) : Config :=
  { c with
    general := { c.general with
      logLevel := a.logLevel?.getD c.general.logLevel
      logFormat := a.logFormat?.getD c.general.logFormat }
    api := { enabled := c.api.enabled && !a.noApi
             bindAddress := a.bind?.getD c.api.bindAddress } }

end Arguments

end Reactor.CommandLine
