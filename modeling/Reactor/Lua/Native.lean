/-
  The functions that a script finds in its library.

  A `Native` is the identity of such a function: two values are the same
  function exactly if their `Native`s are equal.  What it computes is given in
  `Reactor.Lua.Library`.  `qualifiedName` is the name under which it is stored
  at the start.
-/

namespace Reactor.Lua

/-- The library functions. -/
inductive Native where
  -- basic functions
  | assert | collectgarbage | dofile | error | getmetatable | ipairs | load | loadfile | next
  | pairs | pcall | print | rawequal | rawget | rawlen | rawset | select | setmetatable
  | tonumber | tostring | type | warn | xpcall
  /-- the step function that `ipairs` returns -/
  | ipairsStep
  /-- what the host is told of faults by, which no script gets hold of -/
  | traceback
  -- strings
  | byte | char | dump | find | format | gmatch | gsub | len | lower | match_ | pack | packsize
  | rep | reverse | sub | unpack | upper
  /-- the iterator that `gmatch` returns, with the number of its cursor -/
  | gmatchStep (cursor : Nat)
  -- arithmetic on strings
  | strAdd | strSub | strMul | strMod | strPow | strDiv | strIdiv | strUnm
  -- tables
  | tableConcat | tableInsert | tableMove | tablePack | tableRemove | tableSort | tableUnpack
  -- numbers
  | abs | acos | asin | atan | ceil | cos | cosh | deg | exp | floor | fmod | frexp | ldexp | log
  | log10 | max | min | modf | pow | rad | random | randomseed | sin | sinh | sqrt | tan | tanh
  | tointeger | mathType | ult
deriving DecidableEq, Repr, Hashable

namespace Native

/-- The basic functions, by the global that holds each. -/
def basic : List (String × Native) :=
  [("assert", assert), ("collectgarbage", collectgarbage), ("dofile", dofile), ("error", error),
   ("getmetatable", getmetatable), ("ipairs", ipairs), ("load", load), ("loadfile", loadfile),
   ("next", next), ("pairs", pairs), ("pcall", pcall), ("print", print), ("rawequal", rawequal),
   ("rawget", rawget), ("rawlen", rawlen), ("rawset", rawset), ("select", select),
   ("setmetatable", setmetatable), ("tonumber", tonumber), ("tostring", tostring),
   ("type", type), ("warn", warn), ("xpcall", xpcall)]

/-- The fields of the table `string`. -/
def strings : List (String × Native) :=
  [("byte", byte), ("char", char), ("dump", dump), ("find", find), ("format", format),
   ("gmatch", gmatch), ("gsub", gsub), ("len", len), ("lower", lower), ("match", match_),
   ("pack", pack), ("packsize", packsize), ("rep", rep), ("reverse", reverse), ("sub", sub),
   ("unpack", unpack), ("upper", upper)]

/-- The metamethods of strings. -/
def stringMeta : List (String × Native) :=
  [("__add", strAdd), ("__sub", strSub), ("__mul", strMul), ("__mod", strMod),
   ("__pow", strPow), ("__div", strDiv), ("__idiv", strIdiv), ("__unm", strUnm)]

/-- The fields of the table `table`. -/
def tables : List (String × Native) :=
  [("concat", tableConcat), ("insert", tableInsert), ("move", tableMove), ("pack", tablePack),
   ("remove", tableRemove), ("sort", tableSort), ("unpack", tableUnpack)]

/-- The functions of the table `math`. -/
def maths : List (String × Native) :=
  [("abs", abs), ("acos", acos), ("asin", asin), ("atan", atan), ("ceil", ceil), ("cos", cos),
   ("cosh", cosh), ("deg", deg), ("exp", exp), ("floor", floor), ("fmod", fmod),
   ("frexp", frexp), ("ldexp", ldexp), ("log", log), ("log10", log10), ("max", max),
   ("min", min), ("modf", modf), ("pow", pow), ("rad", rad), ("random", random),
   ("randomseed", randomseed), ("sin", sin), ("sinh", sinh), ("sqrt", sqrt), ("tan", tan),
   ("tanh", tanh), ("tointeger", tointeger), ("type", mathType), ("ult", ult)]

/-- The entry of `names` that holds `f`, with what stands in front of it. -/
def nameIn (before : String) (names : List (String × Native)) (f : Native) : Option String :=
  (names.find? (·.2 == f)).map (before ++ ·.1)

/-- The name of a function from the globals, if it is stored there at the
    start. -/
def qualifiedName (f : Native) : Option String :=
  nameIn "" basic f <|> nameIn "string." strings f <|> nameIn "table." tables f
    <|> nameIn "math." maths f

end Native

end Reactor.Lua
