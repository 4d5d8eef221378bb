/-
  Data as values of a script, and back.

  `seed` builds a table for every object and list of some JSON, and `textBytes`
  counts the texts in it; `tableToJson` reads a table of a result.  The keys of a
  table are either the numbers from one on, which makes it a list, or all strings,
  which makes it an object; an empty table is an object.

  * `jsonOfEntries` depends on the entries of a table and not on how they are
    stored; `jsonOfTable` takes those of each table in any order;
  * a result whose tables nest more than 64 deep is refused.
-/
import Reactor.Lua.Library
import Reactor.Script.Decision
import Reactor.Word

namespace Reactor.Script

open Lua

/-! ## From JSON -/

/-- A number as a script's integer, if it has 64 bits, else as a float. -/
def ofInt (i : Int) : Value :=
  if Word.isSigned i then .int (.ofInt i) else .num (Decimal.ofInt i)

mutual

/-- The value of some JSON, with the tables it needs. -/
def seed (h : Heap) : Json → Value × Heap
  | .null => (.null, h)
  | .bool b => (.bool b, h)
  | .int i => (ofInt i, h)
  | .float x => (.num x, h)
  | .str s => (.ofString s, h)
  | .arr items =>
    let (t, h) := seedItems (h, { Table.withRoom items.length 0 with meta? := some listMetaPlace }) 1 items
    let (r, h) := h.allocTable t
    (.table r, h)
  | .obj fields =>
    let (t, h) := seedFields (h, Table.withRoom 0 fields.length) fields
    let (r, h) := h.allocTable t
    (.table r, h)

/-- The items of a list, under the numbers from `n` on. -/
def seedItems (ht : Heap × Table) (n : Nat) : List Json → Table × Heap
  | [] => (ht.2, ht.1)
  | j :: rest =>
    let (v, h) := seed ht.1 j
    seedItems (h, ht.2.set (.int (.ofNat n)) v) (n + 1) rest

/-- The fields of an object, under their names. -/
def seedFields (ht : Heap × Table) : List (String × Json) → Table × Heap
  | [] => (ht.2, ht.1)
  | (k, j) :: rest =>
    let (v, h) := seed ht.1 j
    seedFields (h, ht.2.setText k v) rest

end

mutual

/-- The texts of some JSON, before others: its strings and the names of its fields. -/
def texts (before : List String) : Json → List String
  | .str s => s :: before
  | .arr items => itemTexts before items
  | .obj fields => fieldTexts before fields
  | _ => before

/-- The texts of the items of a list. -/
def itemTexts (before : List String) : List Json → List String
  | [] => before
  | j :: rest => itemTexts (texts before j) rest

/-- The texts of the fields of an object. -/
def fieldTexts (before : List String) : List (String × Json) → List String
  | [] => before
  | (k, j) :: rest => fieldTexts (texts (k :: before) j) rest

end

/-- The bytes of some texts. -/
def sizeOfTexts (ts : List Bytes) : Nat := ts.foldl (fun n s => n + (s.size + 25)) 0

/-- The bytes of the texts of some data.  Short ones are kept in a table, each only
    once. -/
def textBytes (ts : List String) : Nat :=
  let (short, long) := (ts.map String.toUTF8).partition fun s => s.size ≤ 40
  let kept := short.foldl (fun t s => t.set (.str s) .null) Table.empty
  sizeOfTexts (kept.toList.map fun e => e.1.toBytes?.getD .empty) + sizeOfTexts long

/-! ## To JSON -/

/-- The name of a value's type in messages about a result. -/
def typeName : Value → String
  | .int _ => "integer"
  | .null => "lightuserdata"
  | .failure _ => "error"
  | v => v.typeName

/-- Entries of a table: values under numbers, and values under names. -/
structure Split where
  listed : List (Int × Json)
  named : Fields Json

/-- The JSON of a value that is no table. -/
def plainToJson : Value → Except ContractFault Json
  | .bool b => .ok (.bool b)
  | .int i => .ok (.int i.toInt)
  | .num x => if Decimal.isFinite x then .ok (.float x) else .error (.notFinite x)
  | .str s =>
    match Text.Utf8.decode s with
    | .ok t => .ok (.str t)
    | .error f => .error (.stringNotText f)
  | .null => .ok .null
  | v => .error (.badValue (typeName v))

/-- The JSON of a value; `table` gives that of a table. -/
def valueToJson (table : Nat → Except ContractFault Json) : Value → Except ContractFault Json
  | .table r => table r
  | v => plainToJson v

/-- Adds an entry to those before it; `convert` gives the JSON of a value. -/
def addEntry (convert : Value → Except ContractFault Json) (s : Split) (e : Value × Value) :
    Except ContractFault Split :=
  match e.1 with
  | .int i => do return { s with listed := (i.toInt, ← convert e.2) :: s.listed }
  | .str k =>
    match Text.Utf8.decode k with
    | .ok k => do return { s with named := s.named.insert k (← convert e.2) }
    | .error f => .error (.keyNotText f)
  | k => .error (.badKey (typeName k))

/-- Whether sorted numbers are those from `n` on. -/
def countsFrom (n : Int) : List (Int × Json) → Bool
  | [] => true
  | (i, _) :: r => i == n && countsFrom (n + 1) r

/-- The JSON of a table by its entries. -/
def jsonOfSplit (s : Split) : Except ContractFault Json :=
  if s.listed.isEmpty then .ok (.obj s.named)
  else if !s.named.isEmpty then .error .mixedKeys
  else
    let sorted := s.listed.mergeSort fun a b => decide (a.1 ≤ b.1)
    if countsFrom 1 sorted then .ok (.arr (sorted.map (·.2))) else .error .sparseList

/-- The JSON of a table with given entries; `convert` gives that of a value. -/
def jsonOfEntries (convert : Value → Except ContractFault Json) (es : List (Value × Value)) :
    Except ContractFault Json := do
  jsonOfSplit (← es.foldlM (addEntry convert) ⟨[], []⟩)

/-- The JSON of a table, in which tables may nest `depth` deep; `entries` are
    those of each table, in the order in which they are met. -/
def jsonOfTable (entries : Nat → List (Value × Value)) : Nat → Nat → Except ContractFault Json
  | 0, _ => .error .tooDeep
  | depth + 1, r => jsonOfEntries (valueToJson (jsonOfTable entries depth)) (entries r)

/-- The JSON of a table in a heap, in which tables may nest `depth` deep. -/
def tableToJson (h : Heap) : Nat → Nat → Except ContractFault Json :=
  jsonOfTable fun r => (h.table r).toList

/-- The input of the next step that a result is. -/
def resultInput (h : Heap) (next : String) (v : Value) : Except ContractFault Payload :=
  match v with
  | .table r => do
    match ← tableToJson h maxResultDepth r with
    | .obj fields => .ok fields
    | _ => .error .notObject
  | .nil => .error (.noResult next)
  | v => .error (.notTable (typeName v))

end Reactor.Script
