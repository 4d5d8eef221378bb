/-
  The machine.

  A machine has a heap, a stack of frames, and a control: it runs the function
  on top, delivers results to the frame below, or raises a fault.  `step` is
  one instruction or one such passing on; nothing in it recurs, so calls of a
  script may nest as deep as its memory allows.

  A fault is raised in two stages.  First its handler is told of it, on top of
  the stack as it is (`throw`); what it answers then goes down the stack to the
  frame that takes it (`unwind`).  A handler may itself raise a fault, of which
  it is told in turn.

  * `step` is the transition, `run` repeats it;
  * `Machine.start` is a machine that runs a computation;
  * every `budget` instructions a fault is raised, which a script may catch; but
    not while a handler is told of such a fault.

  The machine has no finalizers and no weak tables: what the collector frees is
  not observed, and a metamethod `__gc` is never called.  The heap records the
  tables that have been given one, which the collector of the language would
  call, without watching the budget, at some time before the end of a script or
  when it is closed.
-/
import Std.Data.HashMap
import Reactor.Lua.Library

namespace Reactor.Lua

/-! ## Frames -/

/-- What a frame does with the results of a call that it made. -/
inductive Sink where
  /-- puts so many of them into the registers from `base` on -/
  | values (base count : Nat)
  /-- keeps them as the open values -/
  | open_
  /-- goes to the target if the first counts as `on` -/
  | test (on : Bool) (target : Nat)
  | drop
  /-- returns them -/
  | return_
deriving Inhabited

/-- A function of the script under way. -/
structure LuaFrame where
  proto : Proto
  ups : Array Nat
  pc : Nat
  regs : Array Value
  boxes : Array Nat
  varargs : Array Value
  open_ : Array Value
  /-- values to close when their scope is left, the newest first -/
  pending : List (Nat × Value)
  sink : Sink
  /-- registers taken on the stack below this frame -/
  base : Nat
deriving Inhabited

/-- Where a fault is raised. -/
inductive Origin where
  /-- by an operation of the function on top -/
  | code
  /-- by a library function that it has called -/
  | native
  /-- by an instruction for which the budget is used up -/
  | budget
  /-- by a call for which the stack is too small -/
  | overflow
deriving DecidableEq, Inhabited

/-- A frame that waits. -/
inductive Frame where
  | lua (f : LuaFrame)
  /-- a computation that waits for the results of a call; `isNative` if it
      belongs to a library function of its own -/
  | task (isNative : Bool) (resume : Array Value → Heap → Outcome (Array Value))
  /-- a computation that also takes the fault of a call, of which a handler is
      told before -/
  | guard (isNative : Bool) (handler : Handler)
      (resume : Except Fault (Array Value) → Heap → Outcome (Array Value))
  /-- waits for the answer of a handler, and goes on raising it -/
  | handling (origin : Origin)
  /-- goes on raising a fault after what was to close is closed -/
  | unwinding (e : Fault)

/-- What the machine does next. -/
inductive Control where
  | run (f : LuaFrame)
  | deliver (vs : Array Value)
  /-- raises a value: its handler is told of it -/
  | throw (origin : Origin) (v : Value)
  /-- looks for the frame that takes a fault -/
  | unwind (e : Fault)

/-- A machine that runs a script. -/
structure Machine where
  heap : Heap
  control : Control
  stack : List Frame
  /-- calls of the host under way -/
  depth : Nat
  /-- registers taken by the waiting functions -/
  slots : Nat
  /-- instructions until the next fault, and from one to the next -/
  left : Nat
  budget : Nat

/-! ## Handlers -/

/-- Who is told of a fault above some frames; `outer` is the host. -/
def handlerOf : List Frame → Handler
  | [] => .outer
  | .guard _ .outer _ :: rest => handlerOf rest
  | .guard _ handler _ :: _ => handler
  | _ :: rest => handlerOf rest

/-- What is called to tell it; the host makes a text of the fault. -/
def Handler.function? : Handler → Option Value
  | .nobody => none
  | .value v => some v
  | .outer => some (.native .traceback)

/-- A handler is told of a fault of the budget. -/
def Frame.isQuiet : Frame → Bool
  | .handling .budget => true
  | _ => false

/-- A handler is told that the stack is too small. -/
def Frame.isOverflow : Frame → Bool
  | .handling .overflow => true
  | _ => false

/-! ## Places -/

/-- The line of the instruction that a function is at. -/
def LuaFrame.line (f : LuaFrame) : Nat := f.proto.lines.getD (f.pc - 1) 0

/-- The place of a function in messages. -/
def LuaFrame.place (f : LuaFrame) : Bytes :=
  f.proto.chunk ++ (":" ++ toString f.line ++ ": ").toUTF8

/-- The place of the function at a level above a library function.  One that has
    raised a fault still stands below the handler. -/
def placeAt : List Frame → Nat → Bytes
  | [], _ => .empty
  | .lua f :: _, 0 => f.place
  | .lua _ :: r, n + 1 => placeAt r n
  | .task true _ :: _, 0 => .empty
  | .task true _ :: r, n + 1 => placeAt r n
  | .guard true _ _ :: _, 0 => .empty
  | .guard true _ _ :: r, n + 1 => placeAt r n
  | .handling .native :: _, 0 => .empty
  | .handling .native :: r, n + 1 => placeAt r n
  | _ :: r, n => placeAt r n

/-! ## Memory -/

/-- What has been reached in counting the live data. -/
structure Marks where
  tables : Array Bool
  boxes : Array Bool
  closures : Array Bool
  cursors : Array Bool
  texts : Std.HashMap UInt64 Nat
  todo : List Value
  bytes : Nat

namespace Marks

/-- Reaches a value: a text is counted once, a reference is put aside. -/
def value (m : Marks) (v : Value) : Marks :=
  match v with
  | .str s =>
    if s.size ≤ 15 then { m with bytes := m.bytes + 8 }
    else
      let key := mixHash (hashBytes (s.extract 0 64)) (hashBytes (s.extract (s.size - 64) s.size))
      let key := mixHash key (UInt64.ofNat s.size)
      if m.texts.contains key then m
      else { m with texts := m.texts.insert key 0, bytes := m.bytes + s.size + 25 }
  | .table r =>
    if m.tables.getD r true then m
    else { m with tables := m.tables.setIfInBounds r true, todo := v :: m.todo }
  | .closure r =>
    if m.closures.getD r true then m
    else { m with closures := m.closures.setIfInBounds r true, todo := v :: m.todo }
  | .native (.gmatchStep r) =>
    if m.cursors.getD r true then m
    else { m with cursors := m.cursors.setIfInBounds r true, bytes := m.bytes + 80 }
  | _ => m

/-- Marks what values refer to. -/
def values (m : Marks) (vs : Array Value) : Marks := vs.foldl value m

/-- Marks a variable and what its value refers to. -/
def box (h : Heap) (m : Marks) (r : Nat) : Marks :=
  if m.boxes.getD r true then m
  else ({ m with boxes := m.boxes.setIfInBounds r true, bytes := m.bytes + 40 }).value (h.box r)

/-- Reaches what the values put aside refer to. -/
def settle (h : Heap) : Nat → Marks → Marks
  | 0, m => m
  | fuel + 1, m =>
    match m.todo with
    | [] => m
    | .table r :: rest =>
      let t := h.table r
      let m := { m with todo := rest, bytes := m.bytes + t.bytes }
      let m := m.values t.list
      let m := t.entries.foldl (fun m e => if e.2.isNil then m else (m.value e.1).value e.2) m
      let m := match t.meta? with
        | some r => m.value (.table r)
        | none => m
      settle h fuel m
    | .closure r :: rest =>
      let c := h.closures.getD r default
      let m := { m with todo := rest, bytes := m.bytes + 40 + 8 * c.boxes.size }
      settle h fuel (c.boxes.foldl (box h) m)
    | _ :: rest => settle h fuel { m with todo := rest }

/-- Marks what a function that runs refers to. -/
def frame (h : Heap) (m : Marks) (f : LuaFrame) : Marks :=
  let m := m.values f.regs
  let m := m.values f.varargs
  let m := m.values f.open_
  let m := f.pending.foldl (fun m p => m.value p.2) m
  (f.boxes.foldl (box h) (f.ups.foldl (box h) m))

end Marks

/-- The bytes of all that the machine can still reach. -/
def Machine.liveBytes (m : Machine) : Nat :=
  let h := m.heap
  let start : Marks :=
    { tables := Array.replicate h.tables.size false, boxes := Array.replicate h.boxes.size false,
      closures := Array.replicate h.closures.size false,
      cursors := Array.replicate h.cursors.size false, texts := ∅, todo := [], bytes := 20000 }
  let marks := start.value (.table h.globals) |>.value (.table h.stringMeta)
  let marks := m.stack.foldl (fun marks f => match f with
    | .lua f => marks.frame h f
    | _ => marks) marks
  let marks := match m.control with
    | .run f => marks.frame h f
    | .deliver vs => marks.values vs
    | .throw _ v => marks.value v
    | .unwind e => marks.value e.toValue
  (marks.settle h (h.tables.size + h.closures.size + 1)).bytes

/-- The bytes of the stack. -/
def Machine.stackBytes (m : Machine) : Nat := 16 * m.slots + 64 * m.stack.length

/-! ## Calls -/

/-- The most calls of the host under way. -/
def maxHostCalls : Nat := 200

/-- The same for what a handler calls that is told of too many. -/
def maxHandlerCalls : Nat := 220

/-- The most values on the stack. -/
def maxSlots : Nat := 1000000

/-- More of them for a handler that is told of too many. -/
def spareSlots : Nat := 200

/-- A function that runs, on values for its parameters. -/
def enter (c : Closure) (args : Array Value) (base : Nat) : LuaFrame :=
  let p := c.proto
  let n := p.params
  let regs := args.extract 0 n
  let regs := regs ++ Array.replicate (p.size - regs.size) .nil
  { proto := p, ups := c.boxes, pc := 0, regs, boxes := #[],
    varargs := if p.isVararg then args.extract n args.size else #[],
    open_ := #[], pending := [], sink := .drop, base }

/-- What is called for a value: itself, or its metamethods until one is a
    function, each with the value before it as first argument. -/
def callee (h : Heap) : Nat → Value → Array Value → Except Value (Value × Array Value)
  | 0, f, _ => .error f
  | fuel + 1, f, args =>
    if Operation.isFunction f then .ok (f, args)
    else match h.metafield f "__call" with
      | .nil => .error f
      | tm => callee h fuel tm (#[f] ++ args)

/-- A message, after the place of the function on top of the stack if it is one of
    the script; its own operations stand above it. -/
def placed : List Frame → Bytes → Value
  | .lua f :: _, message => .str (f.place ++ message)
  | .task false _ :: rest, message => placed rest message
  | .guard false _ _ :: rest, message => placed rest message
  | .handling .native :: _, message => .str message
  | .handling _ :: rest, message => placed rest message
  | _, message => .str message

/-- What ends a handler that cannot go on. -/
def errorInHandling : Fault := .value (.ofString "error in error handling")

namespace Control

/-- Raises what a library function fails with; the text of a memory fault is that
    fault, of which nobody is told. -/
def ofNative (v : Value) : Control :=
  if v = .ofString Fault.memoryText then .unwind .memory else .throw .native v

/-- Raises the fault of a computation; `isNative` says whose it is. -/
def ofFault (isNative : Bool) (stack : List Frame) : Fault → Control
  | .memory => .unwind .memory
  | .bare m => if isNative then ofNative (.str m) else .throw .code (placed stack m)
  | .value v => if isNative then ofNative v else .throw .code v

end Control

/-- How a computation goes on: its result is delivered, its fault raised, its
    call made. -/
inductive Next where
  | control (c : Control) (h : Heap)
  | call (f : Value) (args : Array Value) (hint : Option Hint) (h : Heap) (wait : Frame)

/-- How a run goes on after a task; `isNative` says whose it is. -/
def Next.ofOutcome (isNative : Bool) (stack : List Frame) : Outcome (Array Value) → Next
  | .done vs h => .control (.deliver vs) h
  | .failed e h => .control (.ofFault isNative stack e) h
  | .calling f args hint h resume => .call f args hint h (.task isNative resume)
  | .guarding f args handler h resume => .call f args none h (.guard isNative handler resume)

namespace Machine

/-- Makes a call that a frame waits for.  The host has room for so many; a handler
    that is told of too many has a little more. -/
def callAbove (m : Machine) (wait : Frame) (call : Machine → Machine) : Machine :=
  let ⟨heap, _, stack, depth, slots, left, budget⟩ := m
  let stack := wait :: stack
  let depth := depth + 1
  if depth = maxHostCalls then
    -- the frame that would wait is where the fault arises
    ⟨heap, .throw .code (placed stack "C stack overflow".toUTF8), stack, depth, slots, left, budget⟩
  else if maxHandlerCalls ≤ depth then
    ⟨heap, .unwind errorInHandling, stack, depth, slots, left, budget⟩
  else call ⟨heap, .deliver #[], stack, depth, slots, left, budget⟩

/-- Goes on after a computation, with the waiting frame on the stack if it made
    a call. -/
def resumeWith (m : Machine) (isNative : Bool) (o : Heap → Outcome (Array Value))
    (callValue : Machine → Value → Array Value → Option Hint → Machine) : Machine :=
  let ⟨heap, _, stack, depth, slots, left, budget⟩ := m
  match Next.ofOutcome isNative stack (o heap) with
  | .control c heap => ⟨heap, c, stack, depth, slots, left, budget⟩
  | .call f args hint heap wait =>
    callAbove ⟨heap, .deliver #[], stack, depth, slots, left, budget⟩ wait fun m =>
      callValue m f args hint

/-- Calls a function of the script, if the stack has room for it. -/
def callClosure (m : Machine) (c : Closure) (args : Array Value) : Machine :=
  let needed := m.slots + c.proto.size
  let isHandler := m.stack.any Frame.isOverflow
  if needed ≤ maxSlots ∨ (isHandler ∧ needed ≤ maxSlots + spareSlots) then
    { m with control := .run (enter c args m.slots) }
  else if isHandler then { m with control := .unwind errorInHandling }
  else { m with control := .throw .overflow (placed m.stack "stack overflow".toUTF8) }

/-- Calls a value with the stack as it is. -/
def callValue (m : Machine) : Nat → Value → Array Value → Option Hint → Machine
  | 0, _, _, _ => m
  | fuel + 1, f, args, hint =>
    match callee m.heap 100 f args with
    | .error v =>
      let text := "attempt to call a ".toUTF8 ++ m.heap.typeName v ++ " value".toUTF8 ++ hintText hint
      { m with control := .throw .code (placed m.stack text) }
    | .ok (.closure r, args) => m.callClosure (m.heap.closures.getD r default) args
    | .ok (.native n, args) =>
      let stack := m.stack
      let info : CallInfo := ⟨hint, fun level => placeAt stack (level - 1), m.depth⟩
      m.resumeWith true (n.run ⟨info, n, args⟩) fun m f args hint => callValue m fuel f args hint
    | .ok _ => m

/-- Library functions that call each other directly are few. -/
def maxDirect : Nat := 220

/-- Calls a value from a function of the script, which waits for the results. -/
def callFrom (m : Machine) (f : LuaFrame) (sink : Sink) (used : Nat) (callee : Value)
    (args : Array Value) (hint : Option Hint) : Machine :=
  let ⟨heap, _, stack, depth, _, left, budget⟩ := m
  let frame := Frame.lua { f with sink }
  callValue ⟨heap, .deliver #[], frame :: stack, depth, f.base + used + 1, left, budget⟩ maxDirect
    callee args hint

/-- Runs an operation of a function of the script, which waits for the
    result. -/
def operate (m : Machine) (f : LuaFrame) (sink : Sink) (t : Task (Array Value)) : Machine :=
  let ⟨heap, _, stack, depth, _, left, budget⟩ := m
  let frame := Frame.lua { f with sink }
  resumeWith ⟨heap, .deliver #[], frame :: stack, depth, f.base + f.regs.size, left, budget⟩ false
    t fun m f args hint => callValue m maxDirect f args hint

/-! ## Instructions -/

/-- The value of an operand. -/
def read (h : Heap) (f : LuaFrame) : Operand → Value
  | .reg i => f.regs.getD i .nil
  | .box i => h.box (f.boxes.getD i 0)
  | .up i => h.box (f.ups.getD i 0)
  | .const v => v

/-- Goes on with the next instruction. -/
def next (m : Machine) (f : LuaFrame) : Machine := { m with control := .run f }

/-- Goes on with a value in a register. -/
def store (m : Machine) (f : LuaFrame) (dst : Nat) (v : Value) : Machine :=
  { m with control := .run { f with regs := f.regs.setIfInBounds dst v } }

/-- Raises a message at the place of the instruction. -/
def refuse (m : Machine) (f : LuaFrame) (message : Bytes) : Machine :=
  { m with control := .throw .code (.str (f.place ++ message)), stack := .lua f :: m.stack }

/-- Puts so many values into the registers from `base` on. -/
def spread (regs : Array Value) (base : Nat) (vs : Array Value) : Nat → Nat → Array Value
  | 0, _ => regs
  | n + 1, i => spread (regs.setIfInBounds (base + i) (vs.getD i .nil)) base vs n (i + 1)

/-- A frame that gets the results of its call. -/
def accept (f : LuaFrame) (vs : Array Value) : LuaFrame :=
  match f.sink with
  | .values base 1 => { f with regs := f.regs.setIfInBounds base (vs.getD 0 .nil) }
  | .values base n => { f with regs := spread f.regs base vs n 0 }
  | .open_ | .return_ => { f with open_ := vs }
  | .test on target => if (vs.getD 0 .nil).isTruthy == on then { f with pc := target } else f
  | .drop => f

/-- The registers from `base` on, with the open values if asked. -/
def listed (f : LuaFrame) (base count : Nat) (isOpen : Bool) : Array Value :=
  let vs := f.regs.extract base (base + count)
  if isOpen then vs ++ f.open_ else vs

/-- Closes the newest value that waits to be closed; the instruction is run
    again after that. -/
def closeNewest (m : Machine) (f : LuaFrame) (v : Value) (rest : List (Nat × Value)) : Machine :=
  let f := { f with pending := rest, pc := f.pc - 1 }
  m.operate f .drop do
    let close ← Task.read fun h => h.metafield v "__close"
    let _ ← Task.call close #[v, .nil] (metaHint "close")
    return #[]

/-- Ends a function of the script with its results. -/
def leaveWith (m : Machine) (f : LuaFrame) (vs : Array Value) : Machine :=
  { m with control := .deliver vs, slots := f.base }

/-- The result of `1` for a comparison. -/
def compareTask (op : Comparison) (a b : Value) : Task (Array Value) := do
  match op with
  | .eq => return #[.bool (← Operation.equals a b)]
  | .lt => return #[.bool (← Operation.lessThan a b)]
  | .le => return #[.bool (← Operation.lessEqual a b)]

/-- A comparison that needs no metamethod. -/
def plainCompare? (op : Comparison) (a b : Value) : Option Bool :=
  match op with
  | .eq =>
    match a, b with
    | .table r, .table s => if r == s then some true else none
    | _, _ => some (a.rawEq b)
  | .lt => Operation.plainLess? a b
  | .le => Operation.plainLessEqual? a b

/-! ### Loops over numbers -/

/-- How a loop over numbers starts. -/
inductive LoopStart where
  | failed (message : String)
  | skip
  /-- the start, the number of rounds after the first, and the step -/
  | integers (start : Int64) (rounds : UInt64) (step : Int64)
  | floats (start limit step : Float)

/-- The limit of a loop over integers, clipped to what they reach; `none` if
    the loop has no round. -/
def clippedLimit (limit : Value) (step : Int64) : Option (Option Int64) :=
  match limit.toNumber? with
  | some (.int i) => some (some i)
  | some (.num x) =>
    let bound := if step < 0 then Decimal.ceilFloat x else Decimal.floorFloat x
    match floatToInt? bound with
    | some i => some (some i)
    | none =>
      if x > 0.0 then some (if step < 0 then none else some maxInteger)
      else some (if step > 0 then none else some minInteger)
  | _ => none

/-- Starts a loop over numbers. -/
def startLoop (h : Heap) (start limit step : Value) : LoopStart :=
  let bad := fun (what : String) (v : Value) =>
    LoopStart.failed ("bad 'for' " ++ what ++ " (number expected, got "
      ++ String.ofList (toChars (h.typeName v)) ++ ")")
  match start, step with
  | .int i, .int s =>
    if s == 0 then .failed "'for' step is zero"
    else match clippedLimit limit s with
      | none => bad "limit" limit
      | some none => .skip
      | some (some l) =>
        if (if s > 0 then i > l else i < l) then .skip
        else if s > 0 then .integers i ((l.toUInt64 - i.toUInt64) / s.toUInt64) s
        else .integers i ((i.toUInt64 - l.toUInt64) / ((-(s + 1)).toUInt64 + 1)) s
  | _, _ =>
    match limit.toFloat?, step.toFloat?, start.toFloat? with
    | none, _, _ => bad "limit" limit
    | _, none, _ => bad "step" step
    | _, _, none => bad "initial value" start
    | some l, some s, some i =>
      if s == 0.0 then .failed "'for' step is zero"
      else if (if 0.0 < s then l < i else i < l) then .skip
      else .floats i l s

/-- The registers of a loop that starts at `base`. -/
def loopRegisters (regs : Array Value) (base : Nat) (i limit step : Value) : Array Value :=
  (((regs.setIfInBounds base i).setIfInBounds (base + 1) limit).setIfInBounds (base + 2)
    step).setIfInBounds (base + 3) i

/-- The next round of a loop over numbers, if there is one. -/
def nextRound (regs : Array Value) (base : Nat) : Option (Array Value) :=
  match regs.getD base .nil, regs.getD (base + 1) .nil, regs.getD (base + 2) .nil with
  | .int i, .int rounds, .int s =>
    if rounds == 0 then none
    else
      let i := i + s
      some (((regs.setIfInBounds base (.int i)).setIfInBounds (base + 1)
        (.int (rounds - 1))).setIfInBounds (base + 3) (.int i))
  | .num i, .num l, .num s =>
    let i := i + s
    if (if 0.0 < s then i ≤ l else l ≤ i) then
      some ((regs.setIfInBounds base (.num i)).setIfInBounds (base + 3) (.num i))
    else none
  | _, _, _ => none

/-! ### Tables and functions -/

/-- Stores values under numbers from `first` on. -/
def fillList (t : Table) (first : Nat) (vs : Array Value) : Table :=
  (vs.foldl (fun (ti : Table × Nat) v => (ti.1.set (.int (.ofNat ti.2)) v, ti.2 + 1)) (t, first)).1

/-- A table with room in its list part for at least `n` values. -/
def widened (t : Table) (n : Nat) : Table :=
  if t.list.size ≥ n then t
  else { t with list := t.list ++ Array.replicate (n - t.list.size) .nil }

/-- The boxes of a new function. -/
def capturedBoxes (f : LuaFrame) (ups : Array (UpSource × String)) : Array Nat :=
  ups.map fun (source, _) => match source with
    | .box i => f.boxes.getD i 0
    | .up i => f.ups.getD i 0

/-- Gives a box to a register. -/
def setBoxPlace (boxes : Array Nat) (i r : Nat) : Array Nat :=
  if i < boxes.size then boxes.setIfInBounds i r
  else (boxes ++ Array.replicate (i - boxes.size) 0).push r

/-- The fields read without a metamethod: present, or of a table without
    one. -/
def plainIndex? (h : Heap) (v k : Value) : Option Value :=
  match v with
  | .table r =>
    let t := h.table r
    let x := match k.key? with
      | some k => t.get k
      | none => .nil
    if x.isNil && t.meta?.isSome then none else some x
  | _ => none

/-- The place of a table that is written without a metamethod. -/
def plainTarget? (h : Heap) (v : Value) : Option Nat :=
  match v with
  | .table r => if (h.table r).meta?.isNone then some r else none
  | _ => none

/-- Runs one instruction of a function, whose `pc` is already past it. -/
def execute (m : Machine) (f : LuaFrame) (i : Instr) : Machine :=
  match i with
  | .move dst src => m.store f dst (read m.heap f src)
  | .newBox i src =>
    let v := read m.heap f src
    let (r, heap) := m.heap.allocBox v
    { m with heap, control := .run { f with boxes := setBoxPlace f.boxes i r } }
  | .setBox i src =>
    let v := read m.heap f src
    { m with heap := m.heap.setBox (f.boxes.getD i 0) v, control := .run f }
  | .setUp i src =>
    let v := read m.heap f src
    { m with heap := m.heap.setBox (f.ups.getD i 0) v, control := .run f }
  | .index dst object key hint =>
    let v := read m.heap f object
    let k := read m.heap f key
    match plainIndex? m.heap v k with
    | some x => m.store f dst x
    | none => m.operate f (.values dst 1) do return #[← Operation.index v k hint]
  | .setIndex object key value hint =>
    let v := read m.heap f object
    let k := read m.heap f key
    let x := read m.heap f value
    match plainTarget? m.heap v, k.key? with
    | some r, some k => { m with heap := m.heap.rawSet r k x, control := .run f }
    | _, _ => m.operate f .drop do
        Operation.setIndex v k x hint
        return #[]
  | .method dst object name hint =>
    let v := read m.heap f object
    let f := { f with regs := f.regs.setIfInBounds (dst + 1) v }
    match plainIndex? m.heap v (.str name) with
    | some x => m.store f dst x
    | none => m.operate f (.values dst 1) do return #[← Operation.index v (.str name) hint]
  | .arith op dst a b hintA hintB =>
    let x := read m.heap f a
    let y := read m.heap f b
    match Operation.plainArith op x y with
    | .value v => m.store f dst v
    | _ => m.operate f (.values dst 1) do return #[← Operation.arithmetic op x y hintA hintB]
  | .unary op dst a hint =>
    let x := read m.heap f a
    match op with
    | .not => m.store f dst (.bool (!x.isTruthy))
    | .neg => m.operate f (.values dst 1) do return #[← Operation.negate x hint]
    | .bnot => m.operate f (.values dst 1) do return #[← Operation.bitNot x hint]
    | .len => m.operate f (.values dst 1) do return #[← Operation.length x hint]
  | .concat dst base count hints =>
    let vs := (f.regs.extract base (base + count)).toList.zip hints
    m.operate f (.values dst 1) do return #[← Operation.concat vs.reverse]
  | .compare op a b on target =>
    let x := read m.heap f a
    let y := read m.heap f b
    match plainCompare? op x y with
    | some r => m.next (if r == on then { f with pc := target } else f)
    | none => m.operate f (.test on target) (compareTask op x y)
  | .jump target => m.next { f with pc := target }
  | .test a on target =>
    m.next (if (read m.heap f a).isTruthy == on then { f with pc := target } else f)
  | .newTable dst listSize entryCount =>
    let (r, heap) := m.heap.allocTable (.withRoom listSize entryCount)
    { m with heap, control := .run { f with regs := f.regs.setIfInBounds dst (.table r) } }
  | .setList table base count first isOpen =>
    let vs := listed f base count isOpen
    match f.regs.getD table .nil with
    | .table r =>
      let heap := m.heap.charge (16 * vs.size)
      let tables := heap.tables.modify r fun t => fillList (widened t (first - 1 + vs.size)) first vs
      { m with heap := { heap with tables }, control := .run f }
    | _ => m.next f
  | .call base count isOpen results hint =>
    let args := listed f (base + 1) count isOpen
    let sink := match results with
      | some n => .values base n
      | none => .open_
    m.callFrom f sink base (f.regs.getD base .nil) args hint
  | .tailCall base count isOpen hint =>
    let args := listed f (base + 1) count isOpen
    match callee m.heap 100 (f.regs.getD base .nil) args with
    | .ok (.closure r, args) =>
      let c := m.heap.closures.getD r default
      { m with control := .run (enter c args f.base) }
    | _ => m.callFrom f .return_ base (f.regs.getD base .nil) args hint
  | .ret base count isOpen =>
    match f.pending with
    | (_, v) :: rest => m.closeNewest f v rest
    | [] => m.leaveWith f (listed f base count isOpen)
  | .vararg base results =>
    match results with
    | some n => m.next { f with regs := spread f.regs base f.varargs n 0 }
    | none => m.next { f with open_ := f.varargs }
  | .closure dst index =>
    let p := f.proto.protos.getD index default
    let (r, heap) := m.heap.allocClosure ⟨p, capturedBoxes f p.ups⟩
    { m with heap, control := .run { f with regs := f.regs.setIfInBounds dst (.closure r) } }
  | .forPrep base target =>
    match startLoop m.heap (f.regs.getD base .nil) (f.regs.getD (base + 1) .nil)
      (f.regs.getD (base + 2) .nil) with
    | .failed message => m.refuse f message.toUTF8
    | .skip => m.next { f with pc := target }
    | .integers i rounds s =>
      m.next { f with regs := loopRegisters f.regs base (.int i) (.int rounds.toInt64) (.int s) }
    | .floats i l s =>
      m.next { f with regs := loopRegisters f.regs base (.num i) (.num l) (.num s) }
  | .forLoop base target =>
    match nextRound f.regs base with
    | some regs => m.next { f with regs, pc := target }
    | none => m.next f
  | .genericCall base count =>
    m.callFrom f (.values (base + 4) count) (base + 4) (f.regs.getD base .nil)
      #[f.regs.getD (base + 1) .nil, f.regs.getD (base + 2) .nil]
      (some ⟨"for iterator", "for iterator".toUTF8⟩)
  | .genericLoop base target =>
    match f.regs.getD (base + 4) .nil with
    | .nil => m.next f
    | v => m.next { f with regs := f.regs.setIfInBounds (base + 2) v, pc := target }
  | .markClose reg level name =>
    match f.regs.getD reg .nil with
    | .nil | .bool false => m.next f
    | v =>
      if (m.heap.metafield v "__close").isNil then
        m.refuse f ("variable '" ++ name ++ "' got a non-closable value").toUTF8
      else m.next { f with pending := (level, v) :: f.pending }
  | .close level =>
    match f.pending with
    | (l, v) :: rest => if l ≥ level then m.closeNewest f v rest else m.next f
    | [] => m.next f
  | .leave level target =>
    match f.pending with
    | (l, v) :: rest => if l ≥ level then m.closeNewest f v rest else m.next { f with pc := target }
    | [] => m.next { f with pc := target }

/-! ## Steps -/

/-- The message of the fault that ends a budget of instructions. -/
def budgetMessage (budget : Nat) : String := "instruction limit exceeded (" ++ toString budget ++ ")"

/-- Counts the live data if the bytes used are above the limit; a fault if
    they are above it too, or leave too little. -/
def collect (m : Machine) : Machine :=
  let live := m.liveBytes
  let limit := m.heap.limit
  let m := { m with heap := { m.heap with used := live } }
  if live + m.stackBytes + limit / 128 > limit then
    match m.control with
    | .run f => { m with control := .unwind .memory, stack := .lua f :: m.stack }
    | _ => m
  else m

/-- Whether a function runs with more bytes used than the limit. -/
def isOverLimit (m : Machine) : Bool :=
  match m.control with
  | .run _ => m.heap.used + 16 * m.slots > m.heap.limit
  | _ => false

/-- Fetches the next instruction of a function and runs it.  The budget begins anew
    when it is used up; the fault is not raised while a handler is told of one. -/
def advance (m : Machine) (f : LuaFrame) : Machine :=
  match f.proto.code[f.pc]? with
  | none => m.leaveWith f #[]
  | some i =>
    let f := { f with pc := f.pc + 1 }
    if 1 < m.left then execute { m with left := m.left - 1 } f i
    else if m.stack.any Frame.isQuiet then execute { m with left := m.budget } f i
    else
      { m with control := .throw .budget (.failure (budgetMessage m.budget)), left := m.budget,
               stack := .lua f :: m.stack }

/-- The registers that are taken when a fault is raised. -/
def slotsTaken (m : Machine) : Nat :=
  match m.stack with
  | .lua f :: _ => f.base + f.regs.size
  | _ => m.slots

/-- Tells the handler of a value that is raised. -/
def tell (m : Machine) (origin : Origin) (v : Value) : Machine :=
  match (handlerOf m.stack).function? with
  | none => { m with control := .unwind (.value v) }
  | some handler =>
    callAbove { m with slots := m.slotsTaken } (.handling origin) fun m =>
      callValue m maxDirect handler #[v] none

/-- One step: an instruction, or passing results or a fault to the frame on
    top.  A machine with an empty stack that has come to its end stays as it is. -/
def step (m : Machine) : Machine :=
  if m.isOverLimit then m.collect
  else
  -- the control is taken out, so that its frame has one owner
  let ⟨heap, control, stack, depth, slots, left, budget⟩ := m
  let m : Machine := ⟨heap, .deliver #[], stack, depth, slots, left, budget⟩
  match control with
  | .run f => m.advance f
  | .deliver vs =>
    let m := { m with control := .deliver vs }
    match m.stack with
    | [] => m
    | .lua f :: rest =>
      let m := { m with stack := rest }
      match f.sink with
      | .return_ => m.leaveWith f vs
      | _ => m.next (accept f vs)
    | .task isNative resume :: rest =>
      resumeWith { m with stack := rest, depth := m.depth - 1 } isNative (resume vs)
        fun m f args hint => callValue m maxDirect f args hint
    | .guard isNative _ resume :: rest =>
      resumeWith { m with stack := rest, depth := m.depth - 1 } isNative (resume (.ok vs))
        fun m f args hint => callValue m maxDirect f args hint
    | .handling _ :: rest =>
      { m with stack := rest, control := .unwind (.value (vs.getD 0 .nil)), depth := m.depth - 1 }
    | .unwinding e :: rest =>
      { m with stack := rest, control := .unwind e, depth := m.depth - 1 }
  | .throw origin v => m.tell origin v
  | .unwind e =>
    let m := { m with control := .unwind e }
    match m.stack with
    | [] => m
    | .lua f :: rest =>
      match f.pending with
      | [] => { m with stack := rest, slots := f.base }
      | (_, v) :: more =>
        let close := m.heap.metafield v "__close"
        let frames := .unwinding e :: .lua { f with pending := more } :: rest
        callValue { m with stack := frames, depth := m.depth + 1, slots := f.base + f.regs.size }
          maxDirect close #[v, e.toValue] (metaHint "close")
    | .guard isNative _ resume :: rest =>
      resumeWith { m with stack := rest, depth := m.depth - 1 } isNative (resume (.error e))
        fun m f args hint => callValue m maxDirect f args hint
    | .task .. :: rest | .handling _ :: rest | .unwinding _ :: rest =>
      { m with stack := rest, depth := m.depth - 1 }

/-- Whether the machine has come to its end. -/
def isDone (m : Machine) : Bool :=
  match m.control with
  | .deliver _ | .unwind _ => m.stack.isEmpty
  | .run _ | .throw .. => false

/-- Repeats steps to the end, or as long as the fuel lasts. -/
def run : Nat → Machine → Machine
  | 0, m => m
  | fuel + 1, m => if m.isDone then m else run fuel m.step

/-- A machine that runs a computation. -/
def start (heap : Heap) (budget : Nat) (t : Task (Array Value)) : Machine :=
  resumeWith ⟨heap, .deliver #[], [], 0, 0, budget, budget⟩ true t
    fun m f args hint => callValue m maxDirect f args hint

/-- How a machine has ended; `none` if it has not. -/
def result? (m : Machine) : Option (Except Fault (Array Value)) :=
  if m.isDone then
    match m.control with
    | .deliver vs => some (.ok vs)
    | .unwind e => some (.error e)
    | .run _ | .throw .. => none
  else none

end Machine

end Reactor.Lua
