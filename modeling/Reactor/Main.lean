/-
  The program.

  It starts as its command line and its environment say.  While it serves, each
  line of its input is a request to the management API: a method, a target, and
  perhaps a body of JSON.  The end of the input tells it to stop.
-/
import Reactor.Engine.Builtin
import Reactor.Http.Router
import Reactor.Script.Evaluate
import Reactor.Startup

namespace Reactor.Main

/-- Why a file cannot be used. -/
def fileError : IO.Error → FileError
  | .alreadyExists .. => .exists_
  | .inappropriateType .. => .isFolder
  | .invalidArgument .. => .notFolder
  | _ => .notFound

/-- Does something with files that may fail. -/
def attempt {α : Type} (act : IO α) : IO (Except FileError α) := do
  try return .ok (← act)
  catch e => return .error (fileError e)

/-- The path of the folder of a file; empty if there is none. -/
def folderOf (path : String) : String := "/".intercalate (path.splitOn "/").dropLast

/-- The file system of the machine. -/
def files : Files IO where
  read path := attempt (IO.FS.readBinFile path)
  isThere path := return (← attempt (IO.FS.readBinFile path)).isOk
  makeParents path := attempt do
    if folderOf path ≠ "" then IO.FS.createDirAll (folderOf path)
  write path bytes := attempt (IO.FS.writeBinFile path bytes)

/-- The files of the machine with the storage in them. -/
def disk : Disk IO := { files with openStorage := Startup.openStorage files }

/-- Prints lines of the log. -/
def printLog (format : LogFormat) (lines : List Log.Line) : IO Unit :=
  lines.forM fun l =>
    IO.println (match format with
      | .text => l.show
      | .json => l.toJson.compress)

/-- Prints what is seen of a run, and gives its status. -/
def finish (r : Startup.Report) : IO UInt32 := do
  r.output.forM fun s => IO.println s
  r.errors.forM fun s => IO.eprintln s
  printLog r.logFormat r.log
  return r.exit.toUInt32

/-- A service with the built-in modules, in some second. -/
def newService (c : Config) (now : Nat) : Http.Service :=
  let engine : Engine :=
    .new (Builtin.addActions .actions) (Builtin.addSources .sources) (Script.evaluate c.script)
  ⟨engine, .empty, [], now, 0⟩

/-- The request in a line. -/
def requestOf (line : String) : Http.Request :=
  let words := (String.ofList (Text.trim line.toList)).splitOn " "
  ⟨words.headD "", (words.drop 1).headD "", some "application/json",
    (" ".intercalate (words.drop 2)).toUTF8⟩

/-- Prints a response. -/
def printResponse (r : Http.Response) : IO Unit :=
  IO.println (toString r.status ++ match r.body with
    | .empty => ""
    | .json j => " " ++ j.compress
    | .text s => " " ++ s)

/-- Answers the requests in the input, and runs the pipelines that they
    launch. -/
partial def answerAll (input : IO.FS.Stream) (started : Nat) (s : Http.Service) : IO Unit := do
  let line ← input.getLine
  if line.isEmpty then return
  let now := (← IO.monoMsNow) / 1000
  let (r, s) := (Http.answer (requestOf line)).run { s with now, uptime := now - started }
  printResponse r
  let (_, _, engine) := s.engine.completeAll s.running
  answerAll input started { s with engine, running := [] }

/-- Passes over the input. -/
partial def waitForEnd (input : IO.FS.Stream) : IO Unit := do
  unless (← input.getLine).isEmpty do waitForEnd input

/-- Serves until the input ends. -/
def serve (s : Startup.Session) : IO UInt32 := do
  printLog s.config.general.logFormat (s.log.filter s.rules.pass)
  let input ← IO.getStdin
  let started := (← IO.monoMsNow) / 1000
  if s.config.api.enabled then answerAll input started (newService s.config started)
  else waitForEnd input
  printLog s.config.general.logFormat (s.closing.filter s.rules.pass)
  return 0

end Reactor.Main

/-- Runs the service as the command line says. -/
def main (args : List String) : IO UInt32 := do
  let env : Reactor.Startup.Environment :=
    ⟨← IO.getEnv "REFLEX_CONFIG", ← IO.getEnv "REFLEX_LOG"⟩
  match ← Reactor.Startup.start Reactor.Main.disk args env with
  | .ended r => Reactor.Main.finish r
  | .serving s => Reactor.Main.serve s
