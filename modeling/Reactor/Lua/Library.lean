/-
  The library.

  `Native.run` is what a library function computes; `Heap.standard` is the heap
  in which a script starts, with all of them stored under their names.

  Some of what the language has is left out:

  * files: `dofile` and `loadfile` find none, and what `print` and `warn` write is
    not kept;
  * binary chunks: `string.dump` fails for every function, and `load` refuses what
    is not a text;
  * finalizers and weak tables (see `Reactor.Lua.Machine`): `collectgarbage` keeps
    its settings and frees nothing.
-/
import Reactor.Lua.Library.Basic
import Reactor.Lua.Library.Strings
import Reactor.Lua.Library.Tables
import Reactor.Lua.Library.Maths

namespace Reactor.Lua

/-- What a function of the library computes. -/
def Native.run (f : Native) (a : Arguments) : Task (Array Value) :=
  match f with
  | .byte | .char | .dump | .find | .format | .gmatch | .gsub | .len | .lower | .match_ | .pack
  | .packsize | .rep | .reverse | .sub | .unpack | .upper | .gmatchStep _ | .strAdd | .strSub
  | .strMul | .strMod | .strPow | .strDiv | .strIdiv | .strUnm => Library.strings f a
  | .tableConcat | .tableInsert | .tableMove | .tablePack | .tableRemove | .tableSort
  | .tableUnpack => Library.tables f a
  | .abs | .acos | .asin | .atan | .ceil | .cos | .cosh | .deg | .exp | .floor | .fmod | .frexp
  | .ldexp | .log | .log10 | .max | .min | .modf | .pow | .rad | .random | .randomseed | .sin
  | .sinh | .sqrt | .tan | .tanh | .tointeger | .mathType | .ult => Library.maths f a
  | _ => Library.basic f a

/-- A table of functions under their names. -/
def Table.ofNatives (fields : List (String × Native)) (t : Table) : Table :=
  fields.foldl (fun t f => t.setText f.1 (.native f.2)) t

/-- The places of the tables of the library. -/
def globalsPlace : Nat := 0

/-- The place of the table `string`. -/
def stringPlace : Nat := 1

/-- The place of the table `table`. -/
def tablePlace : Nat := 2

/-- The place of the table `math`. -/
def mathPlace : Nat := 3

/-- The place of the metatable of all strings. -/
def stringMetaPlace : Nat := 4

/-- The metatable of lists that come from data: it cannot be seen or changed. -/
def listMetaPlace : Nat := 5

/-- The table of globals at the start. -/
def standardGlobals : Table :=
  ((((Table.ofNatives Native.basic .empty).setText "string" (.table stringPlace)).setText "table"
    (.table tablePlace)).setText "math" (.table mathPlace)).setText "_G" (.table globalsPlace)
    |>.setText "_VERSION" (.ofString "Lua 5.4")

/-- The table `math` at the start. -/
def standardMath : Table :=
  (((Table.ofNatives Native.maths .empty).setText "pi" (.num Library.pi)).setText "huge"
    (.num Library.infinity)).setText "maxinteger" (.int maxInteger)
    |>.setText "mininteger" (.int minInteger)

/-- The heap in which a script starts, with room for `limit` bytes. -/
def Heap.standard (limit : Nat) : Heap where
  tables := #[standardGlobals, Table.ofNatives Native.strings .empty,
    Table.ofNatives Native.tables .empty, standardMath,
    (Table.ofNatives Native.stringMeta .empty).setText "__index" (.table stringPlace),
    Table.empty.setText "__metatable" (.bool false)]
  boxes := #[]
  closures := #[]
  cursors := #[]
  globals := globalsPlace
  stringMeta := stringMetaPlace
  random := RandomState.seeded 0x9e3779b97f4a7c15 0xbf58476d1ce4e5b9
  collector := .standard
  finalizable := []
  used := 24000
  limit := limit

end Reactor.Lua
