/-
  Configurations of modules.

  A resolver gives the bytes that a module is configured with, or says that
  there are none.

  * `fixed` has them in a list, `ofDirectory` in the files of a directory: the
    configuration of a module is the file whose stem is the module's name,
    whatever their case, and of several the one whose name comes first;
  * `stem` is a file name without its extension.
-/
import Reactor.Engine.Error
import Reactor.Json.Value
import Reactor.Text.Lowercase
import Reactor.Text.Utf8

namespace Reactor

/-- Gives the configuration of a module. -/
abbrev Resolver := String → Except ResolveError ByteArray

/-- An entry of a directory: its name, and the bytes of a file; `none` for what
    is no file. -/
structure DirectoryEntry where
  name : ByteArray
  content? : Option ByteArray

namespace Resolver

/-- An empty configuration for every module. -/
def empty : Resolver := fun _ => .ok .empty

/-- Configurations by name. -/
def fixed (configs : Fields ByteArray) : Resolver := fun m =>
  match Fields.get? m configs with
  | some b => .ok b
  | none => .error (.notFound m)

/-- What stands before the last dot of a name, unless that is nothing. -/
def stemOf (name : List UInt8) : List UInt8 :=
  let before := (name.reverse.dropWhile (· != 46)).drop 1
  if before.isEmpty then name else before.reverse

/-- The stem of a file name that is text. -/
def stem? (name : ByteArray) : Option String :=
  let bytes := name.toList
  String.fromUTF8? (ByteArray.mk (if bytes = [46, 46] then bytes else stemOf bytes).toArray)

/-- Whether a file holds the configuration of a module. -/
def isNamed (module : String) (e : DirectoryEntry) : Bool :=
  e.content?.isSome && (stem? e.name).any fun s => Text.lowercase s == Text.lowercase module

/-- Whether bytes come before others, or are a prefix of them. -/
def bytesLe : List UInt8 → List UInt8 → Bool
  | [], _ => true
  | _ :: _, [] => false
  | a :: r, b :: t => a < b || (a == b && bytesLe r t)

/-- The entry whose name comes first. -/
def first? : List DirectoryEntry → Option DirectoryEntry
  | [] => none
  | e :: r =>
    match first? r with
    | none => some e
    | some f => if bytesLe e.name.toList f.name.toList then some e else some f

/-- The files of a directory; `none` if there is none. -/
def ofDirectory (entries? : Option (List DirectoryEntry)) : Resolver := fun m =>
  match entries? with
  | none => .error (.io "NotFound" "No such file or directory (os error 2)")
  | some entries =>
    match (first? (entries.filter (isNamed m))).bind (·.content?) with
    | some b => .ok b
    | none => .error (.notFound m)

end Resolver

end Reactor
