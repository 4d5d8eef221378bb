/-
  The basic functions.

  `pcall` and `xpcall` take the fault of a call as a value, of which a handler
  may be told before; `load` compiles a text or what a function gives piece by
  piece.
-/
import Reactor.Lua.Compile
import Reactor.Lua.Parser
import Reactor.Lua.Library.Arguments

namespace Reactor.Lua

/-- The name of a source in messages: what follows `=` or `@`, or the first
    line of the source itself. -/
def chunkName (source : Bytes) : Bytes :=
  let cs := toChars source
  match cs with
  | '=' :: r => ofChars (r.take 59)
  | '@' :: r => if r.length ≤ 59 then ofChars r else ofChars ("...".toList ++ r.drop (r.length - 56))
  | cs =>
    let line := cs.takeWhile (· != '\n')
    let room := 60 - "[string \"".length - "...".length - "\"]".length - 1
    let text := if line.length = cs.length ∧ cs.length ≤ room then cs
      else line.take room ++ "...".toList
    ofChars ("[string \"".toList ++ text ++ "\"]".toList)

/-- The code of a source text, or the message that refuses it; `depth` is how
    deep calls of the host are nested. -/
def compileSource (chunk : Bytes) (depth : Nat) (source : Bytes) : Except Bytes Proto :=
  match parse depth source with
  | .ok program => .ok (compile chunk program)
  | .error (.message line text) =>
    .error (chunk ++ (":" ++ toString line ++ ": ").toUTF8 ++ text)
  | .error .tooDeep => .error "C stack overflow".toUTF8

namespace Library

/-- A function of a compiled source whose variable `_ENV` holds `env`. -/
def instantiate (proto : Proto) (env : Value) : Task Value := do
  let box ← Task.alloc fun h => h.allocBox env
  return .closure (← Task.alloc fun h => h.allocClosure ⟨proto, #[box]⟩)

/-- The function of a source, or `nil` with a message; its variable `_ENV` is the
    argument at a place, if there is one, else the globals. -/
def loaded (a : Arguments) (source name mode : Bytes) (place : Nat) : Task (Array Value) := do
  let chunk := chunkName name
  let failure := fun (m : Bytes) => (#[.nil, .str m] : Array Value)
  if source.data[0]? == some 27 then
    if !mode.data.contains 98 then
      return failure ("attempt to load a binary chunk (mode is '".toUTF8 ++ mode ++ "')".toUTF8)
    return failure (chunk ++ ": bad binary format (truncated chunk)".toUTF8)
  if !mode.data.contains 116 then
    return failure ("attempt to load a text chunk (mode is '".toUTF8 ++ mode ++ "')".toUTF8)
  match compileSource chunk a.info.depth source with
  | .error m => return failure m
  | .ok proto =>
    let env ← if a.has place then Pure.pure (a.get place)
      else Task.read fun h => .table h.globals
    return #[← instantiate proto env]

/-- The pieces that a function gives, until it gives none. -/
def pieces (a : Arguments) (f : Value) : Nat → Bytes → Task (Except Value Bytes)
  | 0, out => return .ok out
  | fuel + 1, out => do
    match ← Task.guard f #[] .outer with
    | .error e => return .error e.toValue
    | .ok vs =>
      let piece := vs.getD 0 .nil
      match piece, piece.toBytes? with
      | .nil, _ => return .ok out
      | _, some s => if s.size = 0 then return .ok out else pieces a f fuel (out ++ s)
      | _, none =>
        -- a fault like those of the function, of which the same handler is told
        let text := a.info.place 1 ++ "reader function must return a string".toUTF8
        match ← Task.guard (.native .error) #[.str text, .int 0] .outer with
        | .error e => return .error e.toValue
        | .ok _ => return .ok out

/-- A function from a source, given as a text or in pieces. -/
def load (a : Arguments) : Task (Array Value) := do
  let mode ← a.strOr 3 "bt".toUTF8
  match (a.get 1).toBytes? with
  | some s => loaded a s (← a.strOr 2 s) mode 4
  | none =>
    let name ← a.strOr 2 "=(load)".toUTF8
    let f ← a.function 1
    match ← pieces a f 1000000 .empty with
    | .ok s => loaded a s name mode 4
    | .error e => return #[.nil, e]

/-- A function from a file, or `nil` with a message.  No file can be opened, and
    there is nothing to read on the standard input, which stands for no name. -/
def loadFile (a : Arguments) (mode : Bytes) (place : Nat) : Task (Array Value) := do
  if a.isNone 1 then loaded a .empty "=stdin".toUTF8 mode place
  else
    let name ← a.str 1
    return #[.nil,
      .str ("cannot open ".toUTF8 ++ name ++ ": No such file or directory".toUTF8)]

/-- The digits of a numeral in a base, or nothing. -/
def digitsIn (base : Nat) : List Char → Nat → Option Nat
  | [], n => some n
  | c :: r, n =>
    let d := if c.isDigit then c.toNat - 48
      else if isLower c then c.toNat - 87 else if isUpper c then c.toNat - 55 else base
    if d < base then digitsIn base r (n * base + d) else none

/-- A numeral in a base, with blanks around it and a sign. -/
def readIn (base : Nat) (s : List Char) : Option Int64 :=
  let r := ((s.dropWhile isSpace).reverse.dropWhile isSpace).reverse
  let (negative, ds) := Text.sign r
  if ds.isEmpty then none
  else (digitsIn base ds 0).map fun n => .ofInt (if negative then -(n : Int) else n)

/-- The number that a value or a numeral in a base stands for. -/
def tonumber (a : Arguments) : Task Value := do
  if a.isNone 2 then
    match (a.get 1).toNumber? with
    | some v => return v
    | none =>
      let _ ← a.any 1
      return .nil
  else
    let base := (← a.int 2).toInt
    match a.get 1 with
    | .str s =>
      if base < 2 ∨ 36 < base then a.bad 2 "base out of range"
      return match readIn base.toNat (toChars s) with
        | some i => .int i
        | none => .nil
    | _ => a.badType 1 "string"

/-- Raises a value; a text gets the place of the function at a level in
    front. -/
def raiseValue (a : Arguments) (v : Value) (level : Int64) : Task (Array Value) :=
  match v with
  | .str s =>
    if level > 0 then a.failAt level.toInt.toNat s else Task.raise (.value v)
  | _ => Task.raise (.value v)

/-- The arguments from a place on, or their number. -/
def select (a : Arguments) : Task (Array Value) := do
  let n : Int := a.values.size
  match a.get 1 with
  | .str s =>
    if s.data[0]? == some 35 then return #[.int (.ofInt (n - 1))] else from_ n
  | _ => from_ n
where
  from_ (n : Int) : Task (Array Value) := do
    let i := (← a.int 1).toInt
    let i := if i < 0 then n + i else if i > n then n else i
    if i < 1 then a.bad 1 "index out of range"
    return a.values.extract i.toNat a.values.size

/-- Gives a table a metatable, unless the one that it has is protected. -/
def setmetatable (a : Arguments) : Task (Array Value) := do
  let t ← a.table 1
  let new ← match a.get 2 with
    | .nil => if a.has 2 then Pure.pure none else a.badType 2 "nil or table"
    | .table m => Pure.pure (some m)
    | _ => a.badType 2 "nil or table"
  let lock ← Task.read fun h => h.metafield (.table t) "__metatable"
  if !lock.isNil then a.fail "cannot change a protected metatable"
  Task.change fun h => h.setMeta t new
  return #[.table t]

/-- The metatable of a value, or what protects it. -/
def getmetatable (a : Arguments) : Task (Array Value) := do
  let v ← a.any 1
  match v with
  | .failure _ => return #[.bool false]
  | _ =>
    match ← Task.read fun h => h.metatable? v with
    | none => return #[.nil]
    | some m =>
      match ← Task.read fun h => (h.table m).getText "__metatable" with
      | .nil => return #[.table m]
      | lock => return #[lock]

/-- The options of `collectgarbage` with what each gives.  The live data is counted
    by the machine; a step is said to come to the end of its cycle. -/
def collectgarbage (a : Arguments) : Task (Array Value) := do
  let option ← a.strOr 1 "collect".toUTF8
  let old ← Task.read fun h => h.collector
  let set := fun (c : Collector) => Task.change fun h => { h with collector := c }
  match String.fromUTF8? option with
  | some "collect" => return #[.int 0]
  | some "stop" =>
    set { old with isRunning := false }
    return #[.int 0]
  | some "restart" =>
    set { old with isRunning := true }
    return #[.int 0]
  | some "count" =>
    let n ← Task.read fun h => h.used
    return #[.num (Decimal.scaled n (-10))]
  | some "step" =>
    let _ ← a.intOr 2 0
    return #[.bool true]
  | some "isrunning" => return #[.bool old.isRunning]
  | some "setpause" =>
    set { old with pause := Collector.parameter (← a.intOr 2 0) }
    return #[.int (.ofNat old.pause)]
  | some "setstepmul" =>
    set { old with stepMul := Collector.parameter (← a.intOr 2 0) }
    return #[.int (.ofNat old.stepMul)]
  | some "generational" =>
    let _ ← a.intOr 2 0
    let _ ← a.intOr 3 0
    set { old with isGenerational := true }
    return #[.ofString old.mode]
  | some "incremental" =>
    let pause ← a.intOr 2 0
    let stepMul ← a.intOr 3 0
    let _ ← a.intOr 4 0
    set { old with
      isGenerational := false
      pause := if pause = 0 then old.pause else Collector.parameter pause
      stepMul := if stepMul = 0 then old.stepMul else Collector.parameter stepMul }
    return #[.ofString old.mode]
  | _ => a.badBytes 1 ("invalid option '".toUTF8 ++ option ++ "'".toUTF8)

/-- Calls a value: `true` with its results, or `false` with its fault. -/
def protect (f : Value) (args : Array Value) (handler : Handler) : Task (Array Value) := do
  match ← Task.guard f args handler with
  | .ok vs => return #[.bool true] ++ vs
  | .error e => return #[.bool false, e.toValue]

/-- The basic functions. -/
def basic (f : Native) (a : Arguments) : Task (Array Value) := do
  match f with
  | .assert =>
    if (a.get 1).isTruthy then return a.values
    let _ ← a.any 1
    raiseValue a (if a.has 2 then a.get 2 else .ofString "assertion failed!") 1
  | .collectgarbage => collectgarbage a
  | .dofile =>
    let name ← if a.isNone 1 then Pure.pure #[] else Pure.pure #[.str (← a.str 1)]
    match ← loadFile { a with values := name } "bt".toUTF8 2 with
    | #[f] => Task.call f #[] none
    | vs => Task.raise (.value (vs.getD 1 .nil))
  | .error => raiseValue a (a.get 1) (← a.intOr 2 1)
  | .getmetatable => getmetatable a
  | .ipairs =>
    let v ← a.any 1
    return #[.native .ipairsStep, v, .int 0]
  | .ipairsStep =>
    let i := (← a.int 2) + 1
    match ← Operation.index (a.get 1) (.int i) none with
    | .nil => return #[.nil]
    | v => return #[.int i, v]
  | .load => load a
  | .loadfile => loadFile a (← a.strOr 2 "bt".toUTF8) 3
  | .next =>
    let t ← a.table 1
    let key := a.get 2
    match key.key? with
    | none =>
      match key with
      | .nil => nextAfter t .nil
      | _ => Task.fail "invalid key to 'next'"
    | some k => nextAfter t k
  | .pairs =>
    let v ← a.any 1
    match ← Task.read fun h => h.metafield v "__pairs" with
    | .nil => return #[.native .next, v, .nil]
    | tm =>
      let r ← Task.call tm #[v] none
      return #[r.getD 0 .nil, r.getD 1 .nil, r.getD 2 .nil]
  | .pcall =>
    let f ← a.any 1
    protect f (a.values.extract 1 a.values.size) .nobody
  | .print =>
    for v in a.values.toList do
      let _ ← a.display v
    return #[]
  | .rawequal =>
    let x ← a.any 1
    let y ← a.any 2
    return #[.bool (x.rawEq y)]
  | .rawget =>
    let t ← a.table 1
    let k ← a.any 2
    return #[← Task.read fun h => h.rawGet t k]
  | .rawlen =>
    match a.get 1 with
    | .table r => return #[.int (.ofNat (← Task.read fun h => (h.table r).border))]
    | .str s => return #[.int (.ofNat s.size)]
    | _ => a.badType 1 "table or string"
  | .rawset =>
    let t ← a.table 1
    let k ← a.any 2
    let v ← a.any 3
    Operation.rawSetChecked t k v
    return #[.table t]
  | .select => select a
  | .setmetatable => setmetatable a
  | .tonumber => return #[← tonumber a]
  | .tostring => return #[← Task.newString (← a.display (← a.any 1))]
  | .type => return #[.ofString (← a.any 1).typeName]
  | .warn =>
    let _ ← a.str 1
    for i in List.range a.values.size do
      let _ ← a.str (i + 1)
    return #[]
  | .xpcall =>
    let handler ← a.function 2
    protect (a.get 1) (a.values.extract 2 a.values.size) (.value handler)
  | .traceback =>
    match a.get 1 with
    | .failure m => return #[.failure m]
    | v => return #[.str (← a.display v)]
  | _ => return #[]
where
  nextAfter (t : Nat) (k : Value) : Task (Array Value) := do
    match ← Task.read fun h => (h.table t).next? k with
    | none => Task.fail "invalid key to 'next'"
    | some none => return #[.nil]
    | some (some (k, v)) => return #[k, v]

end Library

end Reactor.Lua
