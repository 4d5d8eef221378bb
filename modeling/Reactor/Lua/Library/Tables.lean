/-
  The functions on tables.

  They read and write by number, through metamethods if there are any.  `sort`
  is a quicksort: it puts the first, middle and last element in order, takes
  the middle one as the pivot, and sorts the smaller part first.
-/
import Reactor.Lua.Library.Arguments

namespace Reactor.Lua.Library

/-- The element at a place, with metamethods. -/
def getNumber (t : Value) (i : Int) : Task Value :=
  Operation.index t (.int (.ofInt i)) none

/-- Puts an element at a place, with metamethods. -/
def setNumber (t : Value) (i : Int) (v : Value) : Task Unit :=
  Operation.setIndex t (.int (.ofInt i)) v none

/-- What a value that is read like a table has. -/
def reads : String := "__index"

/-- What a value that is written like a table has. -/
def writes : String := "__newindex"

/-- What a value that is measured like a table has. -/
def lengths : String := "__len"

/-- Moves `n` elements up by one, the last first; `i` is the last place
    filled. -/
def shiftUp (t : Value) : Nat → Int → Task Unit
  | 0, _ => return ()
  | n + 1, i => do
    setNumber t i (← getNumber t (i - 1))
    shiftUp t n (i - 1)

/-- Moves `n` elements down by one; `i` is the first place filled. -/
def shiftDown (t : Value) : Nat → Int → Task Unit
  | 0, _ => return ()
  | n + 1, i => do
    setNumber t i (← getNumber t (i + 1))
    shiftDown t n (i + 1)

/-- Inserts an element, at the end or at a place. -/
def insert (a : Arguments) : Task (Array Value) := do
  let t ← a.tableLike 1 [reads, writes, lengths]
  let e := (← a.length t).toInt + 1
  match a.values.size with
  | 2 =>
    setNumber t e (a.get 2)
    return #[]
  | 3 =>
    let pos := (← a.int 2).toInt
    if pos < 1 ∨ e < pos then a.bad 2 "position out of bounds"
    shiftUp t (e - pos).toNat e
    setNumber t pos (a.get 3)
    return #[]
  | _ => a.fail "wrong number of arguments to 'insert'"

/-- Takes an element out, at the end or at a place. -/
def remove (a : Arguments) : Task (Array Value) := do
  let t ← a.tableLike 1 [reads, writes, lengths]
  let size := (← a.length t)
  let pos := (← a.intOr 2 size).toInt
  let size := size.toInt
  if pos ≠ size then
    if pos < 1 ∨ size + 1 < pos then a.bad 2 "position out of bounds"
  let out ← getNumber t pos
  shiftDown t (size - pos).toNat pos
  setNumber t (max pos size) .nil
  return #[out]

/-- Copies `n` elements, one step of `d` at a time. -/
def copyElements (source target : Value) (d : Int) : Nat → Int → Int → Task Unit
  | 0, _, _ => return ()
  | n + 1, i, j => do
    setNumber target j (← getNumber source i)
    copyElements source target d n (i + d) (j + d)

/-- Copies elements; from the back if the ranges overlap. -/
def move (a : Arguments) : Task (Array Value) := do
  let f := (← a.int 2).toInt
  let e := (← a.int 3).toInt
  let t := (← a.int 4).toInt
  let at_ := if a.isNone 5 then 1 else 5
  let source ← a.tableLike 1 [reads]
  let target ← a.tableLike at_ [writes]
  if e ≥ f then
    if ¬(f > 0 ∨ e < maxInteger.toInt + f) then a.bad 3 "too many elements to move"
    let n := e - f + 1
    if t > maxInteger.toInt - n + 1 then a.bad 4 "destination wrap around"
    let same ← if at_ = 1 then Pure.pure true else Operation.equals source target
    if t > e ∨ t ≤ f ∨ !same then copyElements source target 1 n.toNat f t
    else copyElements source target (-1) n.toNat e (t + n - 1)
  return #[target]

/-- Adds `n` elements to a text, with a separator before each but the first. -/
def joinElements (a : Arguments) (t : Value) (sep : Bytes) (first : Bool) :
    Nat → Int → Bytes → Task Bytes
  | 0, _, out => return out
  | n + 1, i, out => do
    let v ← getNumber t i
    match v.toBytes? with
    | some s =>
      let out := if first then out ++ s else out ++ sep ++ s
      Task.checkSize out.size
      joinElements a t sep false n (i + 1) out
    | none => a.fail ("invalid value (" ++ v.typeName ++ ") at index " ++ toString i
        ++ " in table for 'concat'")

/-- The elements as one text, with a separator. -/
def tableConcat (a : Arguments) : Task (Array Value) := do
  let t ← a.tableLike 1 [reads, lengths]
  let size ← a.length t
  let sep ← a.strOr 2 .empty
  let i := (← a.intOr 3 1).toInt
  let last := (← a.intOr 4 size).toInt
  return #[← Task.newString (← joinElements a t sep true (last + 1 - i).toNat i .empty)]

/-- The arguments as a table, with their number. -/
def tablePack (a : Arguments) : Task (Array Value) := do
  let n := a.values.size
  let t := Table.withRoom n 1
  let t := (a.values.foldl (fun (ti : Table × Nat) v =>
    (ti.1.set (.int (.ofNat ti.2)) v, ti.2 + 1)) (t, 1)).1
  return #[← Task.newTable (t.setText "n" (.int (.ofNat n)))]

/-- The elements from a number on. -/
def elements (t : Value) : Nat → Int → Array Value → Task (Array Value)
  | 0, _, out => return out
  | n + 1, i, out => do elements t n (i + 1) (out.push (← getNumber t i))

/-- The elements as values. -/
def tableUnpack (a : Arguments) : Task (Array Value) := do
  let i := (← a.intOr 2 1).toInt
  let e := (← if a.isNone 3 then a.length (a.get 1) else a.int 3).toInt
  if i > e then return #[]
  if e - i + 1 ≥ 999000 then a.fail "too many results to unpack"
  elements (a.get 1) (e - i + 1).toNat i #[]

/-! ## Sorting -/

/-- Whether one element comes before another. -/
def before (order x y : Value) : Task Bool := do
  if order.isNil then Operation.lessThan x y
  else return (← Task.call1 order #[x, y] none).isTruthy

/-- Refuses an order that contradicts itself. -/
def badOrder {α : Type} (a : Arguments) : Task α := a.fail "invalid order function for sorting"

/-- Goes up from `i` while the elements come before the pivot; gives the first
    that does not. -/
def scanUp (a : Arguments) (t order pivot : Value) (up : Int) : Nat → Int → Task (Int × Value)
  | 0, i => return (i, .nil)
  | fuel + 1, i => do
    let v ← getNumber t i
    if ← before order v pivot then
      if i = up - 1 then badOrder a
      scanUp a t order pivot up fuel (i + 1)
    else return (i, v)

/-- Goes down from `j` while the elements come after the pivot. -/
def scanDown (a : Arguments) (t order pivot : Value) (i : Int) : Nat → Int → Task (Int × Value)
  | 0, j => return (j, .nil)
  | fuel + 1, j => do
    let v ← getNumber t j
    if ← before order pivot v then
      if j < i then badOrder a
      scanDown a t order pivot i fuel (j - 1)
    else return (j, v)

/-- Parts the elements between `lo` and `up` at the pivot, which stands before
    the last; gives its place. -/
def partition (a : Arguments) (t order pivot : Value) (size : Nat) (up : Int) :
    Nat → Int → Int → Task Int
  | 0, i, _ => return i
  | fuel + 1, i, j => do
    let (i, x) ← scanUp a t order pivot up (size + 2) (i + 1)
    let (j, y) ← scanDown a t order pivot i (size + 2) (j - 1)
    if j < i then
      setNumber t (up - 1) x
      setNumber t i pivot
      return i
    else
      setNumber t i y
      setNumber t j x
      partition a t order pivot size up fuel i j

/-- Puts two elements in order. -/
def orderPair (t order : Value) (i j : Int) : Task Unit := do
  let x ← getNumber t i
  let y ← getNumber t j
  if ← before order y x then
    setNumber t i y
    setNumber t j x

/-- Sorts the elements between two numbers. -/
def sortRange (a : Arguments) (t order : Value) : Nat → Int → Int → Task Unit
  | 0, _, _ => return ()
  | fuel + 1, lo, up => do
    if lo ≥ up then return ()
    orderPair t order lo up
    if up - lo = 1 then return ()
    let p := (lo + up) / 2
    let x ← getNumber t p
    let first ← getNumber t lo
    if ← before order x first then
      setNumber t p first
      setNumber t lo x
    else
      let last ← getNumber t up
      if ← before order last x then
        setNumber t p last
        setNumber t up x
    if up - lo = 2 then return ()
    let pivot ← getNumber t p
    let y ← getNumber t (up - 1)
    setNumber t p y
    setNumber t (up - 1) pivot
    let size := (up - lo + 1).toNat
    let p ← partition a t order pivot size up (size + 2) lo (up - 1)
    if p - lo < up - p then
      sortRange a t order fuel lo (p - 1)
      sortRange a t order fuel (p + 1) up
    else
      sortRange a t order fuel (p + 1) up
      sortRange a t order fuel lo (p - 1)

/-- Sorts the elements in place. -/
def sort (a : Arguments) : Task (Array Value) := do
  let t ← a.tableLike 1 [reads, writes, lengths]
  let n := (← a.length t).toInt
  if n > 1 then
    if n ≥ 2147483647 then a.bad 1 "array too big"
    if !a.isNone 2 then let _ ← a.function 2
    sortRange a t (a.get 2) n.toNat 1 n
  return #[]

/-- The functions of the table `table`. -/
def tables (f : Native) (a : Arguments) : Task (Array Value) :=
  match f with
  | .tableConcat => tableConcat a
  | .tableInsert => insert a
  | .tableMove => move a
  | .tablePack => tablePack a
  | .tableRemove => remove a
  | .tableSort => sort a
  | .tableUnpack => tableUnpack a
  | _ => return #[]

end Reactor.Lua.Library
