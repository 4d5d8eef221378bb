/-
  Tables.

  A table has a list part for the keys `1 … n`, and entries for all other
  keys, in the order in which the keys came.  An entry whose value has been
  erased keeps its place until the table grows, so that a traversal that erases
  as it goes is well defined.

  * `get` and `set` read and write one key, given in stored form;
  * `next?` is the traversal: the list part first, then the entries;
  * `border` is a length: a number `n` with a value at `n` and none at `n + 1`
    (or zero with none at `1`).

  The list part grows only when the entries are full: then it takes the
  greatest size (a power of two) of which more than half would be in use.
-/
import Reactor.Lua.Value

namespace Reactor.Lua

/-! ## Places of keys -/

/-- The places of keys, found by hash. -/
structure KeyIndex where
  buckets : Array (List (Value × Nat))
  count : Nat
deriving Inhabited

namespace KeyIndex

/-- The index of no keys. -/
def empty : KeyIndex := ⟨#[], 0⟩

/-- The bucket of a key among `n`. -/
def slot (n : Nat) (k : Value) : Nat := k.hashCode.toNat % n

/-- The place recorded for a key. -/
def find? (ix : KeyIndex) (k : Value) : Option Nat :=
  if ix.buckets.isEmpty then none
  else (ix.buckets.getD (slot ix.buckets.size k) []).lookup k

/-- Records the place of a key into given buckets. -/
def put (buckets : Array (List (Value × Nat))) (k : Value) (place : Nat) :
    Array (List (Value × Nat)) :=
  buckets.modify (slot buckets.size k) ((k, place) :: ·)

/-- Twice as many buckets. -/
def grow (ix : KeyIndex) : KeyIndex :=
  let n := max 4 (2 * ix.buckets.size)
  ⟨ix.buckets.foldl (fun bs b => b.foldl (fun bs (k, p) => put bs k p) bs)
    (Array.replicate n []), ix.count⟩

/-- Records the place of a key that has none yet. -/
def insert (ix : KeyIndex) (k : Value) (place : Nat) : KeyIndex :=
  let ⟨buckets, count⟩ := if ix.count ≥ ix.buckets.size then ix.grow else ix
  ⟨put buckets k place, count + 1⟩

end KeyIndex

/-! ## Tables -/

/-- A table: its list part, its entries with the places of their keys, the
    number of entries it has room for, and its metatable. -/
structure Table where
  list : Array Value
  entries : Array (Value × Value)
  index : KeyIndex
  room : Nat
  meta? : Option Nat
deriving Inhabited

namespace Table

/-- The table without fields. -/
def empty : Table := ⟨#[], #[], .empty, 0, none⟩

/-- The least power of two that is at least `n`; zero for zero. -/
def powerOfTwo (n : Nat) : Nat :=
  if n = 0 then 0 else if n = 1 then 1 else Nat.pow 2 ((n - 1).log2 + 1)

/-- A table with room for `n` values in its list part and `m` entries. -/
def withRoom (n m : Nat) : Table :=
  ⟨Array.replicate n .nil, #[], .empty, powerOfTwo m, none⟩

/-- The place of an integer key in the list part. -/
def listPlace? (t : Table) : Value → Option Nat
  | .int i =>
    let j := i.toInt
    if 0 < j ∧ j ≤ t.list.size then some (j.toNat - 1) else none
  | _ => none

/-- The value under a key, given in stored form. -/
def get (t : Table) (k : Value) : Value :=
  match t.listPlace? k with
  | some j => t.list.getD j .nil
  | none =>
    match t.index.find? k with
    | some p => (t.entries.getD p (.nil, .nil)).2
    | none => .nil

/-- The value under a text. -/
def getText (t : Table) (k : String) : Value := t.get (.ofString k)

/-- The value under a positive integer. -/
def getNat (t : Table) (n : Nat) : Value := t.get (.int (.ofNat n))

/-! ### Growing -/

/-- The power of two whose slice `(2 ^ (b - 1), 2 ^ b]` holds a list key. -/
def slice (n : Nat) : Nat := if n ≤ 1 then 0 else (n - 1).log2 + 1

/-- Counts a key, if it is a positive integer, in its slice. -/
def countKey (counts : Array Nat) : Value → Array Nat
  | .int i =>
    let j := i.toInt
    if 0 < j ∧ j ≤ Nat.pow 2 27 then counts.modify (slice j.toNat) (· + 1) else counts
  | _ => counts

/-- The greatest power of two of which more than half is in use, among `2 ^ b`
    and above, given the keys counted by slice; with the number in use. -/
def bestSize (counts : Array Nat) (total : Nat) : Nat → Nat → Nat → Nat × Nat → Nat × Nat
  | 0, _, _, best => best
  | fuel + 1, b, seen, best =>
    if total ≤ Nat.pow 2 b / 2 then best
    else
      let seen := seen + counts.getD b 0
      bestSize counts total fuel (b + 1) seen (if seen > Nat.pow 2 b / 2 then (Nat.pow 2 b, seen) else best)

/-- Writes an entry under a key that has none, whatever the room. -/
def push (t : Table) (k v : Value) : Table :=
  let ⟨list, entries, index, room, meta?⟩ := t
  let place := entries.size
  ⟨list, entries.push (k, v), index.insert k place, room, meta?⟩

/-- Makes room for a new key: chooses the size of the list part anew and drops
    the erased entries. -/
def rehash (t : Table) (new : Value) : Table :=
  let counts : Array Nat := Array.replicate 28 0
  let counts := (t.list.foldl (fun (cn : Array Nat × Nat) v =>
    (if v.isNil then cn.1 else cn.1.modify (slice (cn.2 + 1)) (· + 1), cn.2 + 1)) (counts, 0)).1
  let listed := counts.foldl (· + ·) 0
  let live := t.entries.foldl (fun n e => if e.2.isNil then n else n + 1) 0
  let counts := t.entries.foldl (fun cs e => if e.2.isNil then cs else countKey cs e.1) counts
  let counts := countKey counts new
  let integers := counts.foldl (· + ·) 0
  let (size, inList) := bestSize counts integers 28 0 0 (0, 0)
  let all := listed + live + 1
  let base : Table := ⟨t.list.extract 0 size ++ Array.replicate (size - t.list.size) .nil, #[],
    .empty, powerOfTwo (all - inList), t.meta?⟩
  -- what falls out of the list part, then the old entries
  let base := (t.list.extract size t.list.size).foldl (fun (tn : Table × Nat) v =>
    (if v.isNil then tn.1 else tn.1.push (.int (.ofNat tn.2)) v, tn.2 + 1)) (base, size + 1) |>.1
  t.entries.foldl (fun b (k, v) =>
    if v.isNil then b
    else match b.listPlace? k with
      | some j => { b with list := b.list.setIfInBounds j v }
      | none => b.push k v) base

/-- Writes a value under a key, given in stored form, that the table does not
    hold. -/
def insertNew (t : Table) (k v : Value) : Table :=
  if v.isNil then t
  else if t.entries.size < t.room then t.push k v
  else
    let t := t.rehash k
    match t.listPlace? k with
    | some j => { t with list := t.list.setIfInBounds j v }
    | none => t.push k v

/-- Writes a value under a key, given in stored form. -/
def set (t : Table) (k v : Value) : Table :=
  match t.listPlace? k with
  | some j => { t with list := t.list.setIfInBounds j v }
  | none =>
    match t.index.find? k with
    | some p => { t with entries := t.entries.modify p fun e => (e.1, v) }
    | none => t.insertNew k v

/-- Puts a value under a text. -/
def setText (t : Table) (k : String) (v : Value) : Table := t.set (.ofString k) v

/-! ### Traversal -/

/-- The first value of the list part from a place on, with its key. -/
def nextListed (t : Table) : Nat → Nat → Option (Value × Value)
  | 0, _ => none
  | fuel + 1, j =>
    match t.list[j]? with
    | none => none
    | some v => if v.isNil then t.nextListed fuel (j + 1) else some (.int (.ofNat (j + 1)), v)

/-- The first entry from a place on whose value is not erased. -/
def nextEntry (t : Table) : Nat → Nat → Option (Value × Value)
  | 0, _ => none
  | fuel + 1, p =>
    match t.entries[p]? with
    | none => none
    | some (k, v) => if v.isNil then t.nextEntry fuel (p + 1) else some (k, v)

/-- The key and value after a key, given in stored form; after `nil` the
    first.  `none` if the key is not one of the table's; `some none` at the
    end. -/
def next? (t : Table) (k : Value) : Option (Option (Value × Value)) :=
  let fromList := fun (j : Nat) =>
    match t.nextListed (t.list.size + 1 - j) j with
    | some kv => some kv
    | none => t.nextEntry (t.entries.size + 1) 0
  match k with
  | .nil => some (fromList 0)
  | _ =>
    match t.listPlace? k with
    | some j => some (fromList (j + 1))
    | none =>
      match t.index.find? k with
      | some p => some (t.nextEntry (t.entries.size + 1 - p) (p + 1))
      | none => none

/-- All keys with their values, in the order of the traversal. -/
def toList (t : Table) : List (Value × Value) :=
  let listed := t.list.toList.zipIdx.filterMap fun (v, j) =>
    if v.isNil then none else some (.int (.ofNat (j + 1)), v)
  listed ++ t.entries.toList.filter fun e => !e.2.isNil

/-! ### Length -/

/-- A border between a place that holds a value (or zero) and one that holds
    none, by halving. -/
def borderWithin (t : Table) : Nat → Nat → Nat → Nat
  | 0, i, _ => i
  | fuel + 1, i, j =>
    if j - i ≤ 1 then i
    else
      let m := (i + j) / 2
      if (t.list.getD (m - 1) .nil).isNil then t.borderWithin fuel i m
      else t.borderWithin fuel m j

/-- A border among the entries above `i`, where `j` holds none. -/
def borderAmong (t : Table) : Nat → Nat → Nat → Nat
  | 0, i, _ => i
  | fuel + 1, i, j =>
    if j - i ≤ 1 then i
    else
      let m := (i + j) / 2
      if (t.getNat m).isNil then t.borderAmong fuel i m else t.borderAmong fuel m j

/-- Doubles until a number holds no value. -/
def unboundAbove (t : Table) : Nat → Nat → Nat → Nat
  | 0, i, j => t.borderAmong 64 i j
  | fuel + 1, i, j =>
    if (t.getNat j).isNil then t.borderAmong 64 i j else t.unboundAbove fuel j (2 * j)

/-- A length of the table. -/
def border (t : Table) : Nat :=
  let n := t.list.size
  if 0 < n ∧ (t.list.getD (n - 1) .nil).isNil then
    if 2 ≤ n ∧ !(t.list.getD (n - 2) .nil).isNil then n - 1
    else t.borderWithin 64 0 n
  else if t.entries.isEmpty ∨ (t.getNat (n + 1)).isNil then n
  else t.unboundAbove 62 (n + 1) (2 * (n + 1))

/-- The size in bytes: of the table itself, of its list, and of a place for each
    entry that it has room for. -/
def bytes (t : Table) : Nat := 56 + 16 * t.list.size + 24 * t.room

end Table

end Reactor.Lua
