/-
  The heap.

  Tables, functions of the script and boxes are known by their places, which
  never change.  `used` is an estimate of the bytes taken since the live ones
  were last counted; a machine compares it with `limit`.

  * `allocTable`, `allocBox`, `allocClosure` take a new place;
  * `metatable?` is the metatable of any value, `metafield` a field of it.
-/
import Reactor.Lua.Code
import Reactor.Lua.Table

namespace Reactor.Lua

/-- A function of the script: its code and the boxes of the variables around
    it. -/
structure Closure where
  proto : Proto
  boxes : Array Nat
deriving Inhabited

/-- An iteration over the matches of a pattern. -/
structure Cursor where
  subject : Bytes
  pattern : Bytes
  position : Nat
  /-- where the last match ended -/
  last? : Option Nat
deriving Inhabited

/-- The state of the random numbers: four words. -/
structure RandomState where
  s0 : UInt64
  s1 : UInt64
  s2 : UInt64
  s3 : UInt64
deriving Inhabited

/-- The settings of the collector, which scripts can read and change. -/
structure Collector where
  isRunning : Bool
  isGenerational : Bool
  pause : Nat
  stepMul : Nat
deriving Inhabited

namespace Collector

/-- The settings at the start. -/
def standard : Collector := ⟨true, false, 200, 100⟩

/-- The name of the mode. -/
def mode (c : Collector) : String := if c.isGenerational then "generational" else "incremental"

/-- What is kept of a number that is set: a byte counts its quarters. -/
def parameter (n : Int64) : Nat := 4 * (n.toInt32.toInt.tdiv 4 % 256).toNat

end Collector

/-- All that lives outside of registers. -/
structure Heap where
  tables : Array Table
  boxes : Array Value
  closures : Array Closure
  cursors : Array Cursor
  /-- the table that holds the globals, and the metatable of strings -/
  globals : Nat
  stringMeta : Nat
  random : RandomState
  collector : Collector
  /-- tables that got a metatable with `__gc` -/
  finalizable : List Nat
  used : Nat
  limit : Nat
deriving Inhabited

namespace Heap

/-- Counts bytes as used. -/
def charge (h : Heap) (n : Nat) : Heap := { h with used := h.used + n }

/-- Adds a table; with its place. -/
def allocTable (h : Heap) (t : Table) : Nat × Heap :=
  (h.tables.size, { h with tables := h.tables.push t, used := h.used + t.bytes })

/-- Adds a variable; with its place. -/
def allocBox (h : Heap) (v : Value) : Nat × Heap :=
  (h.boxes.size, { h with boxes := h.boxes.push v, used := h.used + 40 })

/-- Adds a function; with its place. -/
def allocClosure (h : Heap) (c : Closure) : Nat × Heap :=
  (h.closures.size,
    { h with closures := h.closures.push c, used := h.used + 40 + 8 * c.boxes.size })

/-- Adds a cursor; with its place. -/
def allocCursor (h : Heap) (c : Cursor) : Nat × Heap :=
  (h.cursors.size, { h with cursors := h.cursors.push c, used := h.used + 80 })

/-- The table at a place. -/
def table (h : Heap) (r : Nat) : Table := h.tables.getD r .empty

/-- The value of the variable at a place. -/
def box (h : Heap) (r : Nat) : Value := h.boxes.getD r .nil

/-- Gives the variable at a place a value. -/
def setBox (h : Heap) (r : Nat) (v : Value) : Heap :=
  { h with boxes := h.boxes.setIfInBounds r v }

/-- The value under a key of a table; a key that is none has no value. -/
def rawGet (h : Heap) (r : Nat) (k : Value) : Value :=
  match k.key? with
  | some k => (h.table r).get k
  | none => .nil

/-- Writes under a key, given in stored form. -/
def rawSet (h : Heap) (r : Nat) (k v : Value) : Heap :=
  let before := (h.table r).bytes
  let tables := h.tables.modify r fun t => t.set k v
  let h := { h with tables }
  let after := (h.table r).bytes
  if after > before then h.charge (after - before) else h

/-- Gives a table a metatable, or none.  A finalizer counts if the metatable has it
    by then. -/
def setMeta (h : Heap) (r : Nat) (m : Option Nat) : Heap :=
  let hasFinalizer := m.any fun m => !((h.table m).getText "__gc").isNil
  { h with
    tables := h.tables.modify r fun t => { t with meta? := m }
    finalizable := if hasFinalizer then r :: h.finalizable else h.finalizable }

/-- The metatable of a value. -/
def metatable? (h : Heap) : Value → Option Nat
  | .table r => (h.table r).meta?
  | .str _ => some h.stringMeta
  | _ => none

/-- A field of the metatable of a value; `nil` if there is none. -/
def metafield (h : Heap) (v : Value) (field : String) : Value :=
  match h.metatable? v with
  | some m => (h.table m).getText field
  | none => .nil

/-- The name of a value's type, as its metatable may give it. -/
def typeName (h : Heap) (v : Value) : Bytes :=
  match v with
  | .table _ =>
    match h.metafield v "__name" with
    | .str s => s
    | _ => v.typeName.toUTF8
  | _ => v.typeName.toUTF8

end Heap

end Reactor.Lua
