/-
  From syntax to code.

  Variables take registers in the order of their declarations, and values in
  passing the registers above them.  An operand that is a variable or a
  constant is read where the instruction needs it; everything else is first
  put into a register.

  * `compile` gives the code of a program;
  * `hintOf` is what a message calls the value of an expression.
-/
import Reactor.Lua.Code

namespace Reactor.Lua

/-- Where a variable lives. -/
inductive Place where
  | reg (i : Nat)
  | box (i : Nat)
  | up (i : Nat)

/-- A function in the making. -/
structure Builder where
  /-- the variables that live in boxes, by number -/
  captured : Array Bool
  /-- the label of each jump -/
  targets : Array Nat
  chunk : Bytes
  code : Array Instr
  lines : Array Nat
  protos : Array Proto
  free : Nat
  size : Nat
  places : List (VarId × Place)
  ups : Array (VarId × String)
  labels : List (Nat × Nat × Nat)
  jumps : List (Nat × Nat)
  level : Nat

/-- A step of compiling a function. -/
abbrev Build := StateM Builder

namespace Build

/-! ## Instructions and registers -/

/-- Adds an instruction; gives its number. -/
def emit (line : Nat) (i : Instr) : Build Nat := do
  let b ← get
  set { b with code := b.code.push i, lines := b.lines.push line }
  return b.code.size

/-- The number of the next instruction. -/
def here : Build Nat := return (← get).code.size

/-- An instruction with another target. -/
def retarget (target : Nat) : Instr → Instr
  | .compare op a b on _ => .compare op a b on target
  | .jump _ => .jump target
  | .test a on _ => .test a on target
  | .forPrep base _ => .forPrep base target
  | .forLoop base _ => .forLoop base target
  | .genericLoop base _ => .genericLoop base target
  | .leave level _ => .leave level target
  | i => i

/-- Sends a jump to an instruction. -/
def patch (target pc : Nat) : Build Unit :=
  modify fun b => { b with code := b.code.modify pc (retarget target) }

/-- Sends jumps to the next instruction. -/
def patchHere (pcs : List Nat) : Build Unit := do
  let target ← here
  for pc in pcs do patch target pc

/-- Takes the next registers; gives the first. -/
def reserve (n : Nat) : Build Nat := do
  let b ← get
  set { b with free := b.free + n, size := max b.size (b.free + n) }
  return b.free

/-- Frees the registers from a number on. -/
def release (free : Nat) : Build Unit := modify fun b => { b with free }

/-! ## Variables -/

/-- Where a variable lives; one of a function around this one is entered among
    those that this one uses. -/
def place (id : VarId) (name : String) : Build Place := do
  let b ← get
  match b.places.lookup id with
  | some p => return p
  | none =>
    match b.ups.findIdx? (·.1 == id) with
    | some i => return .up i
    | none =>
      set { b with ups := b.ups.push (id, name) }
      return .up b.ups.size

/-- Gives a variable the register `r`, which holds its value, or a box. -/
def bind (id : VarId) (r line : Nat) : Build Unit := do
  if (← get).captured.getD id false then
    let _ ← emit line (.newBox r (.reg r))
    modify fun b => { b with places := (id, .box r) :: b.places }
  else
    modify fun b => { b with places := (id, .reg r) :: b.places }

/-- Gives variables registers from `r` on. -/
def bindAll (line : Nat) : Nat → List VarId → Build Unit
  | _, [] => pure ()
  | r, id :: rest => do
    bind id r line
    bindAll line (r + 1) rest

/-- What a message calls the value of an expression. -/
def hintOf (e : Expr) : Build (Option Hint) := do
  match e.strip with
  | .var id name =>
    match (← get).places.lookup id with
    | some _ => return some ⟨"local", name.toUTF8⟩
    | none => return some ⟨"upvalue", name.toUTF8⟩
  | .index object key _ =>
    let kind := match object.strip with
      | .var _ "_ENV" => "global"
      | _ => "field"
    match key.strip with
    | .str s => return some ⟨kind, s⟩
    | .int i =>
      if 0 ≤ i.toInt ∧ i.toInt ≤ 255 then return some ⟨"field", "integer index".toUTF8⟩
      else return some ⟨"field", "?".toUTF8⟩
    | _ => return some ⟨kind, "?".toUTF8⟩
  | .str s => return some ⟨"constant", s⟩
  | _ => return none

/-- The value of a constant expression. -/
def constant? : Expr → Option Value
  | .nil => some .nil
  | .bool b => some (.bool b)
  | .int i => some (.int i)
  | .num x => some (.num x)
  | .str s => some (.str s)
  | .unary .neg (.int i) _ => some (.int (-i))
  | .unary .neg (.num x) _ => if x == 0.0 then none else some (.num (-x))
  | .paren e => constant? e
  | _ => none

/-- The line of the last operator of a chain of concatenations. -/
def concatLine (line : Nat) : Expr → Nat
  | .binary .concat _ b l => concatLine l b
  | .paren e => concatLine line e
  | _ => line

/-- Whether the value of an expression can be put into the register of a
    variable that the expression may read. -/
def writesLast : Expr → Bool
  | .binary (.arith _) .. | .unary .. | .index .. | .var .. => true
  | e => (constant? e).isSome

/-! ## Jumps between blocks -/

/-- Adds a jump whose label may not be placed yet. -/
def emitJump (line jump : Nat) : Build Unit := do
  let pc ← emit line (.leave 0 0)
  modify fun b => { b with jumps := (pc, jump) :: b.jumps }

/-- Places a label at the next instruction. -/
def placeLabel (id : Nat) : Build Unit :=
  modify fun b => { b with labels := (id, b.code.size, b.level) :: b.labels }

/-- Sends all jumps to their labels. -/
def settleJumps (b : Builder) : Array Instr :=
  b.jumps.foldl (fun code (pc, jump) =>
    match b.labels.lookup (b.targets.getD jump 0) with
    | some (target, level) => code.modify pc fun _ => .leave level target
    | none => code) b.code

/-- Leaves a scope: what it was to close is closed. -/
def leaveScope (line level : Nat) (places : List (VarId × Place)) (free : Nat) : Build Unit := do
  if (← get).level > level then
    let _ ← emit line (.close level)
  modify fun b => { b with level, places, free }

/-! ## Parts of expressions

  What follows is given the code that puts a part into a register, and decides
  where it is needed. -/

/-- Moves a variable of a function around this one into a register. -/
def fetchUp (i : Nat) : Build Operand := do
  let r ← reserve 1
  let _ ← emit 0 (.move r (.up i))
  return .reg r

/-- An operand with the value of `e`; `put` puts that value into a register. -/
def operand (e : Expr) (put : Nat → Build Unit) : Build Operand := do
  match constant? e, e.strip with
  | some v, _ => return .const v
  | none, .var id name =>
    match ← place id name with
    | .reg i => return .reg i
    | .box i => return .box i
    | .up i => fetchUp i
  | none, _ =>
    let r ← reserve 1
    put r
    return .reg r

/-- The operand of a table whose field is read: with a constant key, a
    variable of a function around this one is read in place. -/
def tableOperand (object key : Expr) (put : Nat → Build Unit) : Build Operand := do
  match object, key with
  | .var id name, .str _ =>
    match ← place id name with
    | .up i => return .up i
    | .reg i => return .reg i
    | .box i => return .box i
  | _, _ => operand object put

/-- An operand that later assignments do not change. -/
def settled (o : Operand) : Build Operand := do
  match o with
  | .const v => return .const v
  | o =>
    let r ← reserve 1
    let _ ← emit 0 (.move r o)
    return .reg r

/-- Calls the function that `putFunction` puts into register `base`, the last
    one taken. -/
def callAt (base line : Nat) (results : Option Nat) (f : Expr) (putFunction : Build Unit)
    (putArguments : Build (Nat × Bool)) : Build Unit := do
  let hint ← hintOf f
  putFunction
  let (n, isOpen) ← putArguments
  let _ ← emit line (.call base n isOpen results hint)
  release (base + 1)

/-- Puts a method into register `base`, and its object after it; gives what a
    message calls the method. -/
def methodTo (base nameLine : Nat) (object : Expr) (name : Bytes) (put : Nat → Build Unit) :
    Build (Option Hint) := do
  let hint ← hintOf object
  let o ← operand object put
  let _ ← emit nameLine (.method base o name hint)
  release (base + 2)
  return some ⟨"method", name⟩

/-- Calls a method with the object after it in register `base`; both registers
    are the last ones taken. -/
def methodAt (base line nameLine : Nat) (results : Option Nat) (object : Expr) (name : Bytes)
    (put : Nat → Build Unit) (putArguments : Build (Nat × Bool)) : Build Unit := do
  let hint ← methodTo base nameLine object name put
  let (n, isOpen) ← putArguments
  let _ ← emit line (.call base (n + 1) isOpen results hint)
  release (base + 1)

/-- Stores values from registers into targets, the last first. -/
def store (line r : Nat) : List (Expr × Operand × Operand) → Build Unit
  | [] => pure ()
  | (e, o, k) :: rest => do
    store line (r + 1) rest
    match e with
    | .var id name =>
      match ← place id name with
      | .reg i => let _ ← emit line (.move i (.reg r))
      | .box i => let _ ← emit line (.setBox i (.reg r))
      | .up i => let _ ← emit line (.setUp i (.reg r))
    | .index object _ _ =>
      let hint ← hintOf object
      let _ ← emit line (.setIndex o k (.reg r) hint)
    | _ => pure ()

/-- Puts `nil` into the next `n` registers. -/
def fillNil (n : Nat) : Build Unit := do
  for _ in List.range n do
    let r ← reserve 1
    let _ ← emit 0 (.move r (.const .nil))

/-- The value of a constant, which is no variable. -/
def constantTo (dst : Nat) (v : Value) : Build Unit := do
  let _ ← emit 0 (.move dst (.const v))

/-- Makes a function of what `body` builds in a builder of its own. -/
def functionTo (dst params : Nat) (isVararg : Bool) (line : Nat) (body : Build Unit) :
    Build Unit := do
  let b ← get
  let inner : Builder :=
    { captured := b.captured, targets := b.targets, chunk := b.chunk, code := #[], lines := #[],
      protos := #[], free := params, size := params, places := [], ups := #[],
      labels := [], jumps := [], level := 0 }
  let ((), done) := body.run inner
  let ups ← done.ups.mapM fun (id, name) => do
    match ← place id name with
    | .box i | .reg i => return (UpSource.box i, name)
    | .up i => return (UpSource.up i, name)
  let proto := Proto.mk (settleJumps done) done.lines done.protos params isVararg
    (done.size + 2) ups b.chunk line
  let index := (← get).protos.size
  modify fun b => { b with protos := b.protos.push proto }
  let _ ← emit line (.closure dst index)

/-- The statements of a scope of its own. -/
def inScope (line : Nat) (body : Build Unit) : Build Unit := do
  let b ← get
  body
  leaveScope line b.level b.places b.free

/-! ## Expressions and statements -/

mutual

/-- Puts the value of an expression into a register above the variables. -/
def exprTo (dst : Nat) : Expr → Build Unit
  | .nil => constantTo dst .nil
  | .bool b => constantTo dst (.bool b)
  | .int i => constantTo dst (.int i)
  | .num x => constantTo dst (.num x)
  | .str s => constantTo dst (.str s)
  | .vararg => do let _ ← emit 0 (.vararg dst (some 1))
  | .function body => function dst body
  | .var id name => do
    match ← place id name with
    | .reg i => if i ≠ dst then let _ ← emit 0 (.move dst (.reg i))
    | .box i => let _ ← emit 0 (.move dst (.box i))
    | .up i => let _ ← emit 0 (.move dst (.up i))
  | .index object key line => do
    let free := (← get).free
    let hint ← hintOf object
    let o ← tableOperand object key (fun r => exprTo r object)
    let k ← operand key (fun r => exprTo r key)
    let _ ← emit line (.index dst o k hint)
    release free
  | .call f args line => do
    let free := (← get).free
    if dst + 1 = free then callAt dst line (some 1) f (exprTo dst f) (arguments args)
    else
      let base ← reserve 1
      callAt base line (some 1) f (exprTo base f) (arguments args)
      let _ ← emit line (.move dst (.reg base))
      release free
  | .method object name args line nameLine => do
    let free := (← get).free
    if dst + 1 = free then
      let _ ← reserve 1
      methodAt dst line nameLine (some 1) object name (fun r => exprTo r object) (arguments args)
    else
      let base ← reserve 2
      methodAt base line nameLine (some 1) object name (fun r => exprTo r object) (arguments args)
      let _ ← emit line (.move dst (.reg base))
      release free
  | .binary (.arith op) a b line => do
    let free := (← get).free
    let hintA ← hintOf a
    let x ← operand a (fun r => exprTo r a)
    let hintB ← hintOf b
    let y ← operand b (fun r => exprTo r b)
    let _ ← emit line (.arith op dst x y hintA hintB)
    release free
  | .binary .concat a b line => do
    let free := (← get).free
    let base ← reserve 1
    exprTo base a
    let hint ← hintOf a
    let hints ← concatRest (fun r => exprTo r b) b
    let _ ← emit (concatLine line b) (.concat dst base (hints.length + 1) (hint :: hints))
    release free
  | .binary (.compare op swapped negated) a b line => do
    let free := (← get).free
    let x ← operand a (fun r => exprTo r a)
    let y ← operand b (fun r => exprTo r b)
    release free
    let (x, y) := if swapped then (y, x) else (x, y)
    let yes ← emit line (.compare op x y (!negated) 0)
    constantTo dst (.bool false)
    let skip ← emit line (.jump 0)
    patchHere [yes]
    constantTo dst (.bool true)
    patchHere [skip]
  | .binary .and a b line => do
    exprTo dst a
    let skip ← emit line (.test (.reg dst) false 0)
    exprTo dst b
    patchHere [skip]
  | .binary .or a b line => do
    exprTo dst a
    let skip ← emit line (.test (.reg dst) true 0)
    exprTo dst b
    patchHere [skip]
  | .unary op a line => do
    match constant? (.unary op a line) with
    | some v => constantTo dst v
    | none =>
      let free := (← get).free
      let hint ← hintOf a
      let x ← operand a (fun r => exprTo r a)
      let _ ← emit line (.unary op dst x hint)
      release free
  | .table items line => do
    let pc ← emit line (.newTable dst 0 0)
    let free := (← get).free
    let (listed, keyed) ← tableItems dst free 0 0 0 items
    release free
    modify fun b => { b with code := b.code.modify pc fun _ => .newTable dst listed keyed }
  | .paren e => exprTo dst e

/-- Stores the items of a table: `waiting` positional values wait in the
    registers from `base` on, `stored` are stored.  Gives the number of
    positional and of keyed items. -/
def tableItems (table base waiting stored keyed : Nat) : List Item → Build (Nat × Nat)
  | [] => do
    if waiting > 0 then
      let _ ← emit 0 (.setList table base waiting (stored + 1) false)
    return (stored + waiting, keyed)
  | [.positional .vararg] => do
    let _ ← emit 0 (.vararg 0 none)
    let _ ← emit 0 (.setList table base waiting (stored + 1) true)
    return (stored + waiting, keyed)
  | [.positional (.call f args line)] => do
    let r ← reserve 1
    callAt r line none f (exprTo r f) (arguments args)
    let _ ← emit line (.setList table base waiting (stored + 1) true)
    return (stored + waiting, keyed)
  | [.positional (.method object name args line nameLine)] => do
    let r ← reserve 2
    methodAt r line nameLine none object name (fun r => exprTo r object) (arguments args)
    let _ ← emit line (.setList table base waiting (stored + 1) true)
    return (stored + waiting, keyed)
  | .positional e :: rest => do
    let r ← reserve 1
    exprTo r e
    if waiting + 1 = 50 then
      let _ ← emit 0 (.setList table base 50 (stored + 1) false)
      release base
      tableItems table base 0 (stored + 50) keyed rest
    else tableItems table base (waiting + 1) stored keyed rest
  | .keyed k v line :: rest => do
    let free := (← get).free
    let x ← operand k (fun r => exprTo r k)
    let y ← operand v (fun r => exprTo r v)
    let _ ← emit line (.setIndex (.reg table) x y none)
    release free
    tableItems table base waiting stored (keyed + 1) rest

/-- Puts the operands after the first in a chain of concatenations, which binds
    to the right, into the next registers; `put` puts the whole rest into one. -/
def concatRest (put : Nat → Build Unit) : Expr → Build (List (Option Hint))
  | .binary .concat a b _ => do
    let r ← reserve 1
    exprTo r a
    let hint ← hintOf a
    return hint :: (← concatRest (fun r => exprTo r b) b)
  | .paren e => concatRest put e
  | e => do
    let r ← reserve 1
    put r
    return [← hintOf e]

/-- Puts values into the next registers; the last may stay open. -/
def arguments : List Expr → Build (Nat × Bool)
  | [] => return (0, false)
  | [.vararg] => do
    let _ ← emit 0 (.vararg 0 none)
    return (0, true)
  | [.call f args line] => do
    let r ← reserve 1
    callAt r line none f (exprTo r f) (arguments args)
    return (0, true)
  | [.method object name args line nameLine] => do
    let r ← reserve 2
    methodAt r line nameLine none object name (fun r => exprTo r object) (arguments args)
    return (0, true)
  | e :: rest => do
    let r ← reserve 1
    exprTo r e
    let (n, isOpen) ← arguments rest
    return (n + 1, isOpen)

/-- Puts exactly `wanted` values into the next registers. -/
def adjusted (wanted : Nat) : List Expr → Build Unit
  | [] => fillNil wanted
  | [.vararg] => do
    let r ← reserve wanted
    let _ ← emit 0 (.vararg r (some wanted))
  | [.call f args line] => do
    let r ← reserve 1
    callAt r line (some wanted) f (exprTo r f) (arguments args)
    release r
    let _ ← reserve wanted
  | [.method object name args line nameLine] => do
    let r ← reserve 2
    methodAt r line nameLine (some wanted) object name (fun r => exprTo r object) (arguments args)
    release r
    let _ ← reserve wanted
  | e :: rest => do
    let r ← reserve 1
    exprTo r e
    if wanted = 0 then release r
    adjusted (wanted - 1) rest

/-- Code that jumps if the condition counts as `on`, and goes on else; `put`
    puts its value into a register. -/
def jumpIf (on : Bool) (put : Nat → Build Unit) : Expr → Build (List Nat)
  | .paren e => jumpIf on put e
  | .unary .not e _ => jumpIf (!on) (fun r => exprTo r e) e
  | .binary .and a b _ => do
    let no ← jumpIf false (fun r => exprTo r a) a
    let last ← jumpIf on (fun r => exprTo r b) b
    if on then
      patchHere no
      return last
    else return no ++ last
  | .binary .or a b _ => do
    let yes ← jumpIf true (fun r => exprTo r a) a
    let last ← jumpIf on (fun r => exprTo r b) b
    if on then return yes ++ last
    else
      patchHere yes
      return last
  | .binary (.compare op swapped negated) a b line => do
    let free := (← get).free
    let x ← operand a (fun r => exprTo r a)
    let y ← operand b (fun r => exprTo r b)
    release free
    let (x, y) := if swapped then (y, x) else (x, y)
    return [← emit line (.compare op x y (on != negated) 0)]
  | .bool b => do if b == on then return [← emit 0 (.jump 0)] else return []
  | .nil => do if on then return [] else return [← emit 0 (.jump 0)]
  | e => do
    let free := (← get).free
    let x ← operand e put
    release free
    return [← emit 0 (.test x on 0)]

/-- Puts a new function into a register. -/
def function (dst : Nat) : Body → Build Unit
  | .mk params isVararg stats line endLine =>
    functionTo dst params.length isVararg line do
      bindAll line 0 params
      statements stats
      let _ ← emit endLine (.ret 0 0 false)

/-- The statements of a block. -/
def statements : List Stat → Build Unit
  | [] => pure ()
  | s :: rest => do
    statement s
    statements rest

/-- The clauses of an `if` after each other; the jumps to the end are given
    back. -/
def clauses (line : Nat) (last : Bool) : List (Expr × List Stat) → Build (List Nat)
  | [] => return []
  | (cond, body) :: rest => do
    let no ← jumpIf false (fun r => exprTo r cond) cond
    inScope line (statements body)
    let out ← if last && rest.isEmpty then pure [] else pure [← emit line (.jump 0)]
    patchHere no
    return out ++ (← clauses line last rest)

/-- The operands of the targets of an assignment, in order. -/
def targetOperands : List Expr → Build (List (Expr × Operand × Operand))
  | [] => return []
  | .index object key line :: rest => do
    let o ← settled (← tableOperand object key (fun r => exprTo r object))
    let k ← settled (← operand key (fun r => exprTo r key))
    return (.index object key line, o, k) :: (← targetOperands rest)
  | e :: rest => do
    return (e, .const .nil, .const .nil) :: (← targetOperands rest)

/-- One statement. -/
def statement : Stat → Build Unit
  | .local_ vars toClose values line => do
    let base := (← get).free
    adjusted vars.length values
    bindAll line base (vars.map (·.1))
    match toClose with
    | some k =>
      let level := (← get).level
      let _ ← emit line (.markClose (base + k) level ((vars[k]?).elim "?" (·.2)))
      modify fun b => { b with level := level + 1 }
    | none => pure ()
  | .assign [.var id name] [e] line => do
    let free := (← get).free
    match ← place id name with
    | .reg i =>
      if writesLast e then exprTo i e
      else
        let x ← operand e (fun r => exprTo r e)
        let _ ← emit line (.move i x)
    | .box i =>
      let x ← operand e (fun r => exprTo r e)
      let _ ← emit line (.setBox i x)
    | .up i =>
      let x ← operand e (fun r => exprTo r e)
      let _ ← emit line (.setUp i x)
    release free
  | .assign [.index object key _] [e] line => do
    let free := (← get).free
    let hint ← hintOf object
    let o ← tableOperand object key (fun r => exprTo r object)
    let k ← operand key (fun r => exprTo r key)
    let x ← operand e (fun r => exprTo r e)
    let _ ← emit line (.setIndex o k x hint)
    release free
  | .assign lhs values line => do
    let free := (← get).free
    let ts ← targetOperands lhs
    let base := (← get).free
    adjusted lhs.length values
    store line base ts
    release free
  | .call (.call f args line) _ => do
    let r ← reserve 1
    callAt r line (some 0) f (exprTo r f) (arguments args)
    release r
  | .call (.method object name args line nameLine) _ => do
    let r ← reserve 2
    methodAt r line nameLine (some 0) object name (fun r => exprTo r object) (arguments args)
    release r
  | .call e _ => do
    let r ← reserve 1
    exprTo r e
    release r
  | .block body => inScope 0 (statements body)
  | .while_ cond body onBreak line => do
    let start ← here
    let no ← jumpIf false (fun r => exprTo r cond) cond
    inScope line (statements body)
    let _ ← emit line (.jump start)
    patchHere no
    placeLabel onBreak
  | .repeat_ body cond onBreak line => do
    let start ← here
    let b ← get
    statements body
    let yes ← jumpIf true (fun r => exprTo r cond) cond
    if (← get).level > b.level then
      let _ ← emit line (.close b.level)
    let _ ← emit line (.jump start)
    patchHere yes
    leaveScope line b.level b.places b.free
    placeLabel onBreak
  | .if_ branches otherwise line => do
    let out ← clauses line otherwise.isEmpty branches
    inScope line (statements otherwise)
    patchHere out
  | .numericFor var start limit step body onBreak line doLine => do
    let b ← get
    let base ← reserve 1
    exprTo base start
    let r ← reserve 1
    exprTo r limit
    let r ← reserve 1
    match step with
    | some e => exprTo r e
    | none => constantTo r (.int 1)
    let prep ← emit doLine (.forPrep base 0)
    let top ← here
    let r ← reserve 1
    bind var r line
    inScope line (statements body)
    let _ ← emit line (.forLoop base top)
    patchHere [prep]
    leaveScope line b.level b.places b.free
    placeLabel onBreak
  | .genericFor vars values body onBreak line doLine => do
    let b ← get
    let base := b.free
    adjusted 4 values
    let level := b.level
    let _ ← emit doLine (.markClose (base + 3) level "(for state)")
    modify fun b => { b with level := level + 1 }
    let go ← emit doLine (.jump 0)
    let top ← here
    let r ← reserve vars.length
    let outer := (← get).places
    bindAll line r vars
    inScope line (statements body)
    patchHere [go]
    let _ ← emit line (.genericCall base vars.length)
    let _ ← emit line (.genericLoop base top)
    modify fun b => { b with places := outer }
    leaveScope line b.level b.places b.free
    placeLabel onBreak
  | .localFunction var body line => do
    let r ← reserve 1
    -- the variable is in scope in its own function
    if (← get).captured.getD var false then
      let _ ← emit line (.newBox r (.const .nil))
      modify fun b => { b with places := (var, .box r) :: b.places }
      function r body
      let _ ← emit line (.setBox r (.reg r))
    else
      modify fun b => { b with places := (var, .reg r) :: b.places }
      function r body
  | .return_ [.call f args line] _ => do
    let free := (← get).free
    let r ← reserve 1
    if (← get).level = 0 then
      let hint ← hintOf f
      exprTo r f
      let (n, isOpen) ← arguments args
      let _ ← emit line (.tailCall r n isOpen hint)
    else
      callAt r line none f (exprTo r f) (arguments args)
      let _ ← emit line (.ret 0 0 true)
    release free
  | .return_ [.method object name args line nameLine] _ => do
    let free := (← get).free
    let r ← reserve 2
    if (← get).level = 0 then
      let hint ← methodTo r nameLine object name (fun r => exprTo r object)
      let (n, isOpen) ← arguments args
      let _ ← emit line (.tailCall r (n + 1) isOpen hint)
    else
      methodAt r line nameLine none object name (fun r => exprTo r object) (arguments args)
      let _ ← emit line (.ret 0 0 true)
    release free
  | .return_ values line => do
    let free := (← get).free
    let (n, isOpen) ← arguments values
    let _ ← emit line (.ret free n isOpen)
    release free
  | .goto_ jump line => emitJump line jump
  | .label id => placeLabel id

end

end Build

/-- The main function of a program; its only outer variable is `_ENV`. -/
def compile (chunk : Bytes) (program : Chunk) : Proto :=
  let last := (program.captured.foldl max 0) + 1
  let captured := program.captured.foldl (fun (a : Array Bool) id => a.setIfInBounds id true)
    (Array.replicate last false)
  let jumps := program.targets.foldl (fun n t => max n (t.1 + 1)) 0
  let targets := program.targets.foldl (fun (a : Array Nat) t => a.setIfInBounds t.1 t.2)
    (Array.replicate jumps 0)
  match program.main with
  | .mk _ _ stats _ endLine =>
    let start : Builder :=
      { captured, targets, chunk, code := #[], lines := #[], protos := #[], free := 0, size := 0,
        places := [], ups := #[(program.env, "_ENV")], labels := [], jumps := [], level := 0 }
    let ((), done) := (do
      Build.statements stats
      let _ ← Build.emit endLine (.ret 0 0 false) : Build Unit).run start
    .mk (Build.settleJumps done) done.lines done.protos 0 true (done.size + 2)
      (done.ups.map fun u => (.up 0, u.2)) chunk 0

end Reactor.Lua
