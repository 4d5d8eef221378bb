/-
  Values of the script language.

  Strings are sequences of bytes.  Tables and closures are references into a
  heap (`Reactor.Lua.Heap`), so that equality of values is identity of tables
  and functions, and is decidable.

  * `Value.key?` is the value under which a table stores a key: whole floats
    are stored as integers, `nil` and NaN are no keys;
  * `Value.rawEq` is equality without metamethods, which compares numbers by
    value;
  * `numberText` and `integerText` are the written forms of numbers.
-/
import Reactor.Decimal.Notation
import Reactor.Lua.Native
import Reactor.Word

namespace Reactor.Lua

/-- The text of a value as bytes. -/
abbrev Bytes := ByteArray

/-- A value of the script language. -/
inductive Value where
  | nil
  | bool (b : Bool)
  | int (i : Int64)
  | num (x : Float)
  | str (s : Bytes)
  /-- a table, by its place in the heap -/
  | table (r : Nat)
  /-- a function of the script, by its place in the heap -/
  | closure (r : Nat)
  /-- a function of the library -/
  | native (f : Native)
  /-- the value that stands for JSON's `null` -/
  | null
  /-- an error of the host, with its message -/
  | failure (message : String)
deriving DecidableEq, Inhabited

/-- The value of a text. -/
def Value.ofString (s : String) : Value := .str s.toUTF8

/-- All values but `nil` and `false` count as true. -/
def Value.isTruthy : Value → Bool
  | .nil | .bool false => false
  | _ => true

/-- Whether a value is `nil`. -/
def Value.isNil : Value → Bool
  | .nil => true
  | _ => false

/-- The name of a value's type, as scripts see it. -/
def Value.typeName : Value → String
  | .nil => "nil"
  | .bool _ => "boolean"
  | .int _ | .num _ => "number"
  | .str _ => "string"
  | .table _ => "table"
  | .closure _ | .native _ => "function"
  | .null | .failure _ => "userdata"

/-- Whether a double is the integer `i`. -/
def floatIsInt (x : Float) (i : Int64) : Bool :=
  Decimal.exactInt? x == some i.toInt

/-- The integer equal to a double, if one of 64 bits is. -/
def floatToInt? (x : Float) : Option Int64 :=
  match Decimal.exactInt? x with
  | some i => if Word.isSigned i then some (.ofInt i) else none
  | none => none

/-- Equality without metamethods. -/
def Value.rawEq : Value → Value → Bool
  | .int i, .num x | .num x, .int i => floatIsInt x i
  | .num x, .num y => x == y
  | a, b => a == b

/-- The form in which a table stores a key; `none` for `nil` and NaN. -/
def Value.key? : Value → Option Value
  | .nil => none
  | .num x =>
    match floatToInt? x with
    | some i => some (.int i)
    | none => if x == x then some (.num x) else none
  | v => some v

/-- A hash of bytes. -/
def hashBytes (s : Bytes) : UInt64 :=
  s.foldl (fun h b => (h ^^^ b.toUInt64) * 1099511628211) 14695981039346656037

/-- A hash that agrees on equal values. -/
def Value.hashCode : Value → UInt64
  | .nil => 0
  | .bool b => if b then 1 else 2
  | .int i => i.toUInt64
  | .num x => (x.toBits * 0x9E3779B97F4A7C15) >>> 40
  | .str s => hashBytes s
  | .table r => UInt64.ofNat (4 * r + 3)
  | .closure r => UInt64.ofNat (4 * r + 1)
  | .native f => hash f
  | .null => 5
  | .failure m => hashBytes m.toUTF8

/-! ## Written forms -/

/-- An integer in base ten. -/
def integerText (i : Int64) : String := toString i.toInt

/-- A float: fourteen significant digits, and a fraction even if it is whole. -/
def numberText (x : Float) : String :=
  match Decimal.parts x with
  | .nan => "-nan"
  | .infinite negative => if negative then "-inf" else "inf"
  | .finite b =>
    let ds := Decimal.general b 14 false 'e'
    let ds := if ds.all Char.isDigit then ds ++ ['.', '0'] else ds
    String.ofList (if b.negative then '-' :: ds else ds)

/-- The written form of a reference, as a fixed-width address. -/
def addressText (base r : Nat) : String :=
  String.ofList ('0' :: 'x' :: Decimal.paddedHex 14 (base + 64 * r))

/-- Whether a value is a number. -/
def Value.isNumber : Value → Bool
  | .int _ | .num _ => true
  | _ => false

end Reactor.Lua
