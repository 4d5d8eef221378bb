/-
  Operations on values, with their metamethods.

  Each operation tries the plain rule first, then the metamethod of an operand,
  and fails with a message that names what the operand is called in the script
  (`Hint`).

  * `index`, `setIndex` read and write a field;
  * `arithmetic`, `negate`, `bitNot`, `concat`, `length` are the operators;
  * `equals`, `lessThan`, `lessEqual` are the comparisons;
  * `display` is the text of any value.
-/
import Reactor.Lua.Task

namespace Reactor.Lua

/-- What a message adds about an operand. -/
def hintText : Option Hint → Bytes
  | none => .empty
  | some h => (" (" ++ h.kind ++ " '").toUTF8 ++ h.name ++ "')".toUTF8

/-- The hint of a call that an operation makes of a metamethod. -/
def metaHint (name : String) : Option Hint := some ⟨"metamethod", name.toUTF8⟩

namespace Operation

/-- Fails because of the type of an operand. -/
def typeError {α : Type} (doing : String) (v : Value) (hint : Option Hint) : Task α := do
  let t ← Task.read fun h => h.typeName v
  Task.failBytes (("attempt to " ++ doing ++ " a ").toUTF8 ++ t ++ " value".toUTF8 ++ hintText hint)

/-- Whether a value is a function. -/
def isFunction : Value → Bool
  | .closure _ | .native _ => true
  | _ => false

/-! ## Fields -/

/-- Reads a field, going from table to table at most `fuel` times. -/
def indexFrom (hint : Option Hint) (k : Value) : Nat → Value → Task Value
  | 0, _ => Task.fail "'__index' chain too long; possibly a loop"
  | fuel + 1, v => do
    match v with
    | .table r =>
      let x ← Task.read fun h => h.rawGet r k
      if !x.isNil then return x
      match ← Task.read fun h => (h.table r).meta? with
      | none => return .nil
      | some m =>
        match ← Task.read fun h => (h.table m).getText "__index" with
        | .nil => return .nil
        | tm =>
          if isFunction tm then Task.call1 tm #[v, k] (metaHint "index")
          else indexFrom none k fuel tm
    | _ =>
      match ← Task.read fun h => h.metafield v "__index" with
      | .nil => typeError "index" v hint
      | tm =>
        if isFunction tm then Task.call1 tm #[v, k] (metaHint "index")
        else indexFrom none k fuel tm

/-- How many tables a field is looked for in. -/
def maxChain : Nat := 2000

/-- The field `k` of a value. -/
def index (v k : Value) (hint : Option Hint) : Task Value := indexFrom hint k maxChain v

/-- Writes a field that no metamethod takes. -/
def rawSetChecked (r : Nat) (k v : Value) : Task Unit := do
  match k.key? with
  | some k => Task.change fun h => h.rawSet r k v
  | none =>
    match k with
    | .nil => Task.fail "table index is nil"
    | _ => Task.fail "table index is NaN"

/-- Writes a field, going from table to table at most `fuel` times. -/
def setIndexFrom (hint : Option Hint) (k x : Value) : Nat → Value → Task Unit
  | 0, _ => Task.fail "'__newindex' chain too long; possibly a loop"
  | fuel + 1, v => do
    match v with
    | .table r =>
      match ← Task.read fun h => (h.table r).meta? with
      | none => rawSetChecked r k x
      | some m =>
        let old ← Task.read fun h => h.rawGet r k
        if !old.isNil then rawSetChecked r k x
        else match ← Task.read fun h => (h.table m).getText "__newindex" with
          | .nil => rawSetChecked r k x
          | tm =>
            if isFunction tm then
              let _ ← Task.call tm #[v, k, x] (metaHint "newindex")
            else setIndexFrom none k x fuel tm
    | _ =>
      match ← Task.read fun h => h.metafield v "__newindex" with
      | .nil => typeError "index" v hint
      | tm =>
        if isFunction tm then
          let _ ← Task.call tm #[v, k, x] (metaHint "newindex")
        else setIndexFrom none k x fuel tm

/-- Sets the field `k` of a value. -/
def setIndex (v k x : Value) (hint : Option Hint) : Task Unit := setIndexFrom hint k x maxChain v

/-! ## Arithmetic -/

/-- The name of an operator's metamethod after its two underscores. -/
def arithName : Arith → String
  | .add => "add" | .sub => "sub" | .mul => "mul" | .mod => "mod" | .pow => "pow" | .div => "div"
  | .idiv => "idiv" | .band => "band" | .bor => "bor" | .bxor => "bxor" | .shl => "shl"
  | .shr => "shr"

/-- Whether an operation is on bits. -/
def isBitwise : Arith → Bool
  | .band | .bor | .bxor | .shl | .shr => true
  | _ => false

/-- What a plain operation on two numbers gives. -/
inductive Plain where
  | value (v : Value)
  | failed (message : String)
  /-- the operands are not such that the plain rule applies -/
  | none

/-- The operators that stay among the integers. -/
def integerArith (op : Arith) (a b : Int64) : Plain :=
  match op with
  | .add => .value (.int (a + b))
  | .sub => .value (.int (a - b))
  | .mul => .value (.int (a * b))
  | .idiv =>
    if b == 0 then .failed "attempt to perform 'n//0'" else .value (.int (floorDiv a b))
  | .mod =>
    if b == 0 then .failed "attempt to perform 'n%0'" else .value (.int (floorMod a b))
  | _ => .none

/-- The operators on floats. -/
def floatArith (op : Arith) (a b : Float) : Plain :=
  match op with
  | .add => .value (.num (a + b))
  | .sub => .value (.num (a - b))
  | .mul => .value (.num (a * b))
  | .div => .value (.num (a / b))
  | .pow => .value (.num (if b == 2.0 then a * a else Float.pow a b))
  | .idiv => .value (.num (Decimal.floorFloat (a / b)))
  | .mod => .value (.num (floatMod a b))
  | _ => .none

/-- The bitwise operators. -/
def bitArith (op : Arith) (a b : Int64) : Plain :=
  match op with
  | .band => .value (.int (a &&& b))
  | .bor => .value (.int (a ||| b))
  | .bxor => .value (.int (a ^^^ b))
  | .shl => .value (.int (shiftLeft a b))
  | .shr =>
    .value (.int (if b == minInteger then 0 else shiftLeft a (-b)))
  | _ => .none

/-- The float of a number. -/
def numberFloat? : Value → Option Float
  | .int i => some (intToFloat i)
  | .num x => some x
  | _ => none

/-- The integer of a number that has one. -/
def numberInt? : Value → Option Int64
  | .int i => some i
  | .num x => floatToInt? x
  | _ => none

/-- An operator on two numbers. -/
def plainArith (op : Arith) (a b : Value) : Plain :=
  if isBitwise op then
    match numberInt? a, numberInt? b with
    | some i, some j => bitArith op i j
    | _, _ => .none
  else
    let onFloats :=
      match numberFloat? a, numberFloat? b with
      | some x, some y => floatArith op x y
      | _, _ => .none
    match op, a, b with
    | .div, _, _ | .pow, _, _ => onFloats
    | _, .int i, .int j => integerArith op i j
    | _, _, _ => onFloats

/-- Fails because an operand is no number, or no integer. -/
def arithError {α : Type} (op : Arith) (a b : Value) (hintA hintB : Option Hint) : Task α :=
  if isBitwise op then
    if a.isNumber && b.isNumber then
      let hint := if (numberInt? a).isNone then hintA else hintB
      Task.failBytes ("number".toUTF8 ++ hintText hint ++ " has no integer representation".toUTF8)
    else if a.isNumber then typeError "perform bitwise operation on" b hintB
    else typeError "perform bitwise operation on" a hintA
  else if a.isNumber then typeError "perform arithmetic on" b hintB
  else typeError "perform arithmetic on" a hintA

/-- The metamethod of the first operand that has it. -/
def binaryMeta (field : String) (a b : Value) : Task Value := do
  match ← Task.read fun h => h.metafield a field with
  | .nil => Task.read fun h => h.metafield b field
  | tm => return tm

/-- An arithmetic or bitwise operator. -/
def arithmetic (op : Arith) (a b : Value) (hintA hintB : Option Hint) : Task Value := do
  match plainArith op a b with
  | .value v => return v
  | .failed m => Task.fail m
  | .none =>
    match ← binaryMeta ("__" ++ arithName op) a b with
    | .nil => arithError op a b hintA hintB
    | tm => Task.call1 tm #[a, b] (metaHint (arithName op))

/-- The negative of a value. -/
def negate (a : Value) (hint : Option Hint) : Task Value := do
  match a with
  | .int i => return .int (-i)
  | .num x => return .num (-x)
  | _ =>
    match ← Task.read fun h => h.metafield a "__unm" with
    | .nil => typeError "perform arithmetic on" a hint
    | tm => Task.call1 tm #[a, a] (metaHint "unm")

/-- The complement of the bits of a value. -/
def bitNot (a : Value) (hint : Option Hint) : Task Value := do
  match numberInt? a with
  | some i => return .int (~~~i)
  | none =>
    match ← Task.read fun h => h.metafield a "__bnot" with
    | .nil => arithError .bxor a a hint hint
    | tm => Task.call1 tm #[a, a] (metaHint "bnot")

/-! ## Concatenation and length -/

/-- Joins two values of which one is neither a text nor a number. -/
def concatMeta (a b : Value) (hintA hintB : Option Hint) : Task Value := do
  match ← binaryMeta "__concat" a b with
  | .nil =>
    if a.toBytes?.isSome then typeError "concatenate" b hintB else typeError "concatenate" a hintA
  | tm => Task.call1 tm #[a, b] (metaHint "concat")

/-- Joins values from the right: `last` is what the ones to the right gave. -/
def concatFrom : List (Value × Option Hint) → Value → Option Hint → Task Value
  | [], last, _ => return last
  | (v, hint) :: rest, last, lastHint => do
    match v.toBytes?, last.toBytes? with
    | some s, some t =>
      Task.checkSize (s.size + t.size)
      concatFrom rest (← Task.newString (s ++ t)) none
    | _, _ => concatFrom rest (← concatMeta v last hint lastHint) none

/-- How many values at the start of a list are texts or numbers. -/
def textCount (vs : List (Value × Option Hint)) : Nat :=
  (vs.takeWhile fun v => v.1.toBytes?.isSome).length

/-- Joins values; the list is reversed. -/
def concat (vs : List (Value × Option Hint)) : Task Value := do
  if textCount vs = vs.length then
    let parts := vs.reverse.filterMap fun v => v.1.toBytes?
    let size := parts.foldl (fun n s => n + s.size) 0
    Task.checkSize size
    Task.newString (parts.foldl (· ++ ·) .empty)
  else match vs with
    | [] => return .nil
    | (v, hint) :: rest => concatFrom rest v hint

/-- The length of a value. -/
def length (v : Value) (hint : Option Hint) : Task Value := do
  match v with
  | .str s => return .int (.ofNat s.size)
  | _ =>
    match ← Task.read fun h => h.metafield v "__len" with
    | .nil =>
      match v with
      | .table r => return .int (.ofNat (← Task.read fun h => (h.table r).border))
      | _ => typeError "get length of" v hint
    | tm => Task.call1 tm #[v] (metaHint "len")

/-! ## Comparison -/

/-- Equality with metamethods. -/
def equals (a b : Value) : Task Bool := do
  match a, b with
  | .table _, .table _ =>
    if a == b then return true
    match ← binaryMeta "__eq" a b with
    | .nil => return false
    | tm => return (← Task.call1 tm #[a, b] (metaHint "eq")).isTruthy
  | _, _ => return a.rawEq b

/-- The order of two numbers or two texts. -/
def plainLess? : Value → Value → Option Bool
  | .int i, .int j => some (decide (i < j))
  | .num x, .num y => some (decide (x < y))
  | .int i, .num y => some (intLtFloat i y)
  | .num x, .int j => some (floatLtInt x j)
  | .str s, .str t => some (bytesLt s t)
  | _, _ => none

/-- The order, equality included, of two numbers or two texts. -/
def plainLessEqual? : Value → Value → Option Bool
  | .int i, .int j => some (decide (i ≤ j))
  | .num x, .num y => some (decide (x ≤ y))
  | .int i, .num y => some (intLeFloat i y)
  | .num x, .int j => some (floatLeInt x j)
  | .str s, .str t => some (!bytesLt t s)
  | _, _ => none

/-- Refuses an order of two values. -/
def noOrder (a b : Value) : Task Bool := do
  let t ← Task.read fun h => h.typeName a
  let u ← Task.read fun h => h.typeName b
  if t == u then Task.failBytes ("attempt to compare two ".toUTF8 ++ t ++ " values".toUTF8)
  else Task.failBytes ("attempt to compare ".toUTF8 ++ t ++ " with ".toUTF8 ++ u)

/-- Whether a value comes before another. -/
def lessThan (a b : Value) : Task Bool := do
  match plainLess? a b with
  | some r => return r
  | none =>
    match ← binaryMeta "__lt" a b with
    | .nil => noOrder a b
    | tm => return (← Task.call1 tm #[a, b] (metaHint "lt")).isTruthy

/-- Whether a value comes before another or is equal to it; values that only say
    what comes before are so if the other does not come before. -/
def lessEqual (a b : Value) : Task Bool := do
  match plainLessEqual? a b with
  | some r => return r
  | none =>
    match ← binaryMeta "__le" a b with
    | .nil =>
      match ← binaryMeta "__lt" b a with
      | .nil => noOrder a b
      | tm => return !(← Task.call1 tm #[b, a] (metaHint "le")).isTruthy
    | tm => return (← Task.call1 tm #[a, b] (metaHint "le")).isTruthy

/-! ## Text -/

/-- The text of a value without metamethods. -/
def plainDisplay (name : Bytes) : Value → Bytes
  | .nil => "nil".toUTF8
  | .bool b => (if b then "true" else "false").toUTF8
  | .int i => (integerText i).toUTF8
  | .num x => (numberText x).toUTF8
  | .str s => s
  | .table r => name ++ (": " ++ addressText 0x55d0c0de0000 r).toUTF8
  | .closure r => name ++ (": " ++ addressText 0x55d0cafe0000 r).toUTF8
  | .native f => name ++ (": " ++ addressText 0x55d0c0000000 ((hash f).toNat % 65536)).toUTF8
  | .null => "userdata: (nil)".toUTF8
  | .failure m => ("runtime error: " ++ m).toUTF8

/-- The text of a value; `onBad` fails if its metamethod gives no text. -/
def display (onBad : Task Value) (v : Value) : Task Value := do
  match ← Task.read fun h => h.metafield v "__tostring" with
  | .nil => return .str (plainDisplay (← Task.read fun h => h.typeName v) v)
  | tm =>
    let r ← Task.call1 tm #[v] none
    match r.toBytes? with
    | some s => return .str s
    | none => onBad

end Operation

end Reactor.Lua
