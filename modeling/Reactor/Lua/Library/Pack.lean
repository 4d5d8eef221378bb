/-
  Values as bytes.

  A format is a list of options, each for one value: integers of a number of
  bytes, floats, strings of a fixed size, with their size in front, or ended by
  a zero.  Other options set the order of bytes and the alignment.

  * `next?` reads one option and the padding before it;
  * `intBytes`, `intOfBytes` write and read an integer.
-/
import Reactor.Lua.Library.Arguments
import Reactor.Word

namespace Reactor.Lua.Pack

/-- What an option stands for. -/
inductive Kind where
  | int | uint | float | double | fixed | counted | zeroEnded | padding | align | none
deriving DecidableEq

/-- The order of bytes and the greatest alignment. -/
structure State where
  little : Bool
  maxAlign : Nat

/-- An option with its size and the bytes that align it. -/
structure Option_ where
  kind : Kind
  size : Nat
  pad : Nat

/-- A number in a format, if there is one. -/
def takeNumber (d : Nat) (cs : List Char) : Nat × List Char :=
  let ds := cs.takeWhile Char.isDigit
  if ds.isEmpty then (d, cs) else (Nat.ofDigitChars 10 (ds.take 9) 0, cs.dropWhile Char.isDigit)

/-- The size of an integer in a format: from one to sixteen. -/
def takeSize (a : Arguments) (d : Nat) (cs : List Char) : Task (Nat × List Char) := do
  let (n, r) := takeNumber d cs
  if n = 0 ∨ n > 16 then
    a.fail ("integral size (" ++ toString n ++ ") out of limits [1,16]")
  return (n, r)

/-- The kind and the size of the first option of a format. -/
def first (a : Arguments) (st : State) : List Char → Task (Kind × Nat × State × List Char)
  | [] => return (.none, 0, st, [])
  | c :: r => do
    match c with
    | 'b' => return (.int, 1, st, r)
    | 'B' => return (.uint, 1, st, r)
    | 'h' => return (.int, 2, st, r)
    | 'H' => return (.uint, 2, st, r)
    | 'l' | 'j' => return (.int, 8, st, r)
    | 'L' | 'J' | 'T' => return (.uint, 8, st, r)
    | 'f' => return (.float, 4, st, r)
    | 'n' | 'd' => return (.double, 8, st, r)
    | 'i' =>
      let (n, r) ← takeSize a 4 r
      return (.int, n, st, r)
    | 'I' =>
      let (n, r) ← takeSize a 4 r
      return (.uint, n, st, r)
    | 's' =>
      let (n, r) ← takeSize a 8 r
      return (.counted, n, st, r)
    | 'c' =>
      if !(r.take 1).any Char.isDigit then a.fail "missing size for format option 'c'"
      let (n, r) := takeNumber 0 r
      return (.fixed, n, st, r)
    | 'z' => return (.zeroEnded, 0, st, r)
    | 'x' => return (.padding, 1, st, r)
    | 'X' => return (.align, 0, st, r)
    | ' ' => return (.none, 0, st, r)
    | '<' => return (.none, 0, { st with little := true }, r)
    | '>' => return (.none, 0, { st with little := false }, r)
    | '=' => return (.none, 0, { st with little := true }, r)
    | '!' =>
      let (n, r) ← takeSize a 8 r
      return (.none, 0, { st with maxAlign := n }, r)
    | c => a.failAt 1 ("invalid format option '".toUTF8 ++ ofChars [c] ++ "'".toUTF8)

/-- The first option of a format with its padding, after `total` bytes. -/
def next? (a : Arguments) (st : State) (total : Nat) (cs : List Char) :
    Task (Option_ × State × List Char) := do
  let (kind, size, st, r) ← first a st cs
  let (align, r) ← match kind with
    | .align => do
      let (k, n, _, r) ← first a st r
      if r.length = cs.length ∨ k = .fixed ∨ n = 0 then
        a.bad 1 "invalid next option for option 'X'"
      Pure.pure (n, r)
    | .int | .uint | .float | .double | .counted => Pure.pure (size, r)
    | _ => Pure.pure (0, r)
  let align := min align st.maxAlign
  if align ≤ 1 then return (⟨kind, size, 0⟩, st, r)
  if Nat.pow 2 align.log2 ≠ align then a.bad 1 "format asks for alignment not power of 2"
  return (⟨kind, size, (align - total % align) % align⟩, st, r)

/-- The `size` bytes of an integer. -/
def intBytes (little : Bool) (size : Nat) (i : Int) : List UInt8 :=
  let n := (i % (Nat.pow 256 size : Nat)).toNat
  let bs := (List.range size).map fun k => UInt8.ofNat (n / Nat.pow 256 k % 256)
  if little then bs else bs.reverse

/-- The natural number of some bytes. -/
def natOfBytes (little : Bool) (bs : List UInt8) : Nat :=
  (if little then bs.reverse else bs).foldl (fun n b => 256 * n + b.toNat) 0

/-- A text as a list of bytes appended to another. -/
def append (out : Bytes) (bs : List UInt8) : Bytes := bs.foldl ByteArray.push out

/-- A double cut to single precision, as bits. -/
def singleBits (x : Float) : Nat := x.toFloat32.toBits.toNat

/-- Writes the values from the argument `i` on. -/
def pack (a : Arguments) : Nat → State → List Char → Nat → Bytes → Task Bytes
  | 0, _, _, _, out => return out
  | fuel + 1, st, cs, i, out => do
    if cs.isEmpty then return out
    let (o, st, r) ← next? a st out.size cs
    let out := append out (List.replicate o.pad 0)
    match o.kind with
    | .int =>
      let n ← a.int (i + 1)
      if o.size < 8 then
        let lim : Int := Word.count (8 * o.size - 1)
        if ¬(-lim ≤ n.toInt ∧ n.toInt < lim) then a.bad (i + 1) "integer overflow"
      pack a fuel st r (i + 1) (append out (intBytes st.little o.size n.toInt))
    | .uint =>
      let n ← a.int (i + 1)
      if o.size < 8 then
        if n.toUInt64.toNat ≥ Word.count (8 * o.size) then a.bad (i + 1) "unsigned overflow"
      pack a fuel st r (i + 1) (append out (intBytes st.little o.size n.toUInt64.toNat))
    | .float =>
      let x ← a.num (i + 1)
      pack a fuel st r (i + 1) (append out (intBytes st.little 4 (singleBits x)))
    | .double =>
      let x ← a.num (i + 1)
      pack a fuel st r (i + 1) (append out (intBytes st.little 8 x.toBits.toNat))
    | .fixed =>
      let s ← a.str (i + 1)
      if s.size > o.size then a.bad (i + 1) "string longer than given size"
      Task.checkSize (out.size + o.size)
      pack a fuel st r (i + 1) (append (out ++ s) (List.replicate (o.size - s.size) 0))
    | .counted =>
      let s ← a.str (i + 1)
      if o.size < 8 ∧ s.size ≥ Word.count (8 * o.size) then
        a.bad (i + 1) "string length does not fit in given size"
      pack a fuel st r (i + 1) (append out (intBytes st.little o.size s.size) ++ s)
    | .zeroEnded =>
      let s ← a.str (i + 1)
      if s.data.contains 0 then a.bad (i + 1) "string contains zeros"
      pack a fuel st r (i + 1) ((out ++ s).push 0)
    | .padding => pack a fuel st r i (out.push 0)
    | .align | .none => pack a fuel st r i out

/-- The size of the values of a format. -/
def size (a : Arguments) : Nat → State → List Char → Nat → Task Nat
  | 0, _, _, total => return total
  | fuel + 1, st, cs, total => do
    if cs.isEmpty then return total
    let (o, st, r) ← next? a st total cs
    if o.kind = .counted ∨ o.kind = .zeroEnded then a.bad 1 "variable-length format"
    let total := total + o.pad + o.size
    if total ≥ 2147483647 then a.bad 1 "format result too large"
    size a fuel st r total

/-- The integer of some bytes, which must fit in 64 bits. -/
def intOfBytes (a : Arguments) (little signed : Bool) (bs : List UInt8) : Task Value := do
  let size := bs.length
  let n := natOfBytes little bs
  if size ≤ 8 then
    if signed ∧ n ≥ Word.count (8 * size - 1) then
      return .int (.ofInt ((n : Int) - (Word.count (8 * size) : Nat)))
    else return .int (.ofInt n)
  else
    let high := n / Word.count 64
    let full := Word.count (8 * (size - 8)) - 1
    if high = 0 ∨ (signed ∧ high = full) then return .int (.ofInt (n % Word.count 64 : Nat))
    else a.fail (toString size ++ "-byte integer does not fit into Lua Integer")

/-- Reads the values of a format from a place on; gives them and the place
    after them. -/
def unpack (a : Arguments) (data : Bytes) :
    Nat → State → List Char → Nat → Array Value → Task (Array Value)
  | 0, _, _, _, out => return out
  | fuel + 1, st, cs, pos, out => do
    if cs.isEmpty then return out.push (.int (.ofNat (pos + 1)))
    let (o, st, r) ← next? a st pos cs
    if o.pad + o.size > data.size - pos then a.bad 2 "data string too short"
    let pos := pos + o.pad
    let bytes := fun (n : Nat) => (data.extract pos (pos + n)).toList
    match o.kind with
    | .int | .uint =>
      let v ← intOfBytes a st.little (o.kind == .int) (bytes o.size)
      unpack a data fuel st r (pos + o.size) (out.push v)
    | .float =>
      let bits := UInt32.ofNat (natOfBytes st.little (bytes 4))
      unpack a data fuel st r (pos + 4) (out.push (.num (Float32.ofBits bits).toFloat))
    | .double =>
      let bits := UInt64.ofNat (natOfBytes st.little (bytes 8))
      unpack a data fuel st r (pos + 8) (out.push (.num (Float.ofBits bits)))
    | .fixed =>
      let v ← Task.newString (data.extract pos (pos + o.size))
      unpack a data fuel st r (pos + o.size) (out.push v)
    | .counted =>
      let n := natOfBytes st.little (bytes o.size)
      if n > data.size - pos - o.size then a.bad 2 "data string too short"
      let start := pos + o.size
      let v ← Task.newString (data.extract start (start + n))
      unpack a data fuel st r (start + n) (out.push v)
    | .zeroEnded =>
      match (bytes (data.size - pos)).findIdx? (· == 0) with
      | none => a.bad 2 "unfinished string for format 'z'"
      | some n =>
        let v ← Task.newString (data.extract pos (pos + n))
        unpack a data fuel st r (pos + n + 1) (out.push v)
    | .padding | .align | .none => unpack a data fuel st r (pos + o.size) out

/-- The order of bytes and the alignment at the start of a format. -/
def start : State := ⟨true, 1⟩

end Reactor.Lua.Pack
