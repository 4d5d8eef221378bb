/-
  Arithmetic and numerals.

  Integers have 64 bits and wrap; floats are doubles.

  * `readNumber?` reads a numeral with blanks around it, as an integer if it is
    written as one and fits (a hexadecimal one wraps);
  * `floorDiv`, `floorMod` round toward minus infinity, on integers and floats;
  * `shiftLeft` moves zeros in, a negative distance shifts to the right.
-/
import Reactor.Lua.Bytes
import Reactor.Word

namespace Reactor.Lua

/-! ## Numerals -/

/-- The value of hexadecimal digits. -/
def hexadecimalValue (ds : List Char) : Nat := ds.foldl (fun n c => 16 * n + hexValue c) 0

/-- An integer numeral without blanks: decimal if it fits, hexadecimal modulo
    `2 ^ 64`. -/
def readInteger? (s : List Char) : Option Int64 :=
  let (negative, r) := Text.sign s
  let signed := fun (n : Nat) => Int64.ofInt (if negative then -(n : Int) else n)
  match r with
  | '0' :: x :: ds =>
    if x == 'x' || x == 'X' then
      if !ds.isEmpty && ds.all isHexDigit then some (signed (hexadecimalValue ds)) else none
    else decimal negative r signed
  | _ => decimal negative r signed
where
  decimal (negative : Bool) (ds : List Char) (signed : Nat → Int64) : Option Int64 :=
    if !ds.isEmpty && ds.all Char.isDigit then
      let n := Nat.ofDigitChars 10 ds 0
      if n < Word.count 63 + (if negative then 1 else 0) then some (signed n) else none
    else none

/-- A signed decimal exponent, of at least one digit. -/
def readExponent? (s : List Char) : Option Int :=
  let (negative, ds) := Text.sign s
  if !ds.isEmpty && ds.all Char.isDigit then
    let n := Nat.ofDigitChars 10 ((ds.dropWhile (· == '0')).take 9) 0
    some (if negative then -(n : Int) else n)
  else none

/-- Digits with an optional point: their value as one number, and how many
    stand after the point; at least one digit. -/
def readMantissa? (isDig : Char → Bool) (s : List Char) : Option (List Char × Nat) :=
  let whole := s.takeWhile isDig
  match s.dropWhile isDig with
  | [] => if whole.isEmpty then none else some (whole, 0)
  | '.' :: frac =>
    if frac.all isDig && !(whole.isEmpty && frac.isEmpty) then some (whole ++ frac, frac.length)
    else none
  | _ => none

/-- Splits at the first character of a class. -/
def splitAtMark (isMark : Char → Bool) (s : List Char) : List Char × Option (List Char) :=
  match s.dropWhile (fun c => !isMark c) with
  | [] => (s, none)
  | _ :: r => (s.takeWhile (fun c => !isMark c), some r)

/-- A float numeral without blanks, decimal or hexadecimal. -/
def readFloat? (s : List Char) : Option Float := do
  let (negative, r) := Text.sign s
  let hex : Option (List Char) :=
    match r with
    | '0' :: x :: ds => if x == 'x' || x == 'X' then some ds else none
    | _ => none
  let value ← match hex with
    | some ds => do
      let (m, e) := splitAtMark (fun c => c == 'p' || c == 'P') ds
      let (digits, places) ← readMantissa? isHexDigit m
      let e ← match e with
        | none => some 0
        | some e => readExponent? e
      -- the exponent may be far out; so may the digits
      some (Decimal.scaled (hexadecimalValue digits) (max (-100000000) (min 100000000 e) - 4 * places))
    | none => do
      let (m, e) := splitAtMark (fun c => c == 'e' || c == 'E') r
      let (digits, places) ← readMantissa? Char.isDigit m
      let e ← match e with
        | none => some 0
        | some e => readExponent? e
      some (Decimal.nearest (Nat.ofDigitChars 10 digits 0) (e - places))
  some (if negative then -value else value)

/-- The number that a text stands for, blanks around it ignored. -/
def readNumber? (s : List Char) : Option Value :=
  let r := ((s.dropWhile isSpace).reverse.dropWhile isSpace).reverse
  match readInteger? r with
  | some i => some (.int i)
  | none => (readFloat? r).map .num

/-! ## Conversions -/

/-- An integer as a float, to the nearest. -/
def intToFloat (i : Int64) : Float := Decimal.ofInt i.toInt

/-- The number that a value is or stands for, as a value. -/
def Value.toNumber? : Value → Option Value
  | .int i => some (.int i)
  | .num x => some (.num x)
  | .str s => readNumber? (toChars s)
  | _ => none

/-- The float that a value is or stands for. -/
def Value.toFloat? (v : Value) : Option Float :=
  match v.toNumber? with
  | some (.int i) => some (intToFloat i)
  | some (.num x) => some x
  | _ => none

/-- The integer that a value is or stands for. -/
def Value.toInt? (v : Value) : Option Int64 :=
  match v.toNumber? with
  | some (.int i) => some i
  | some (.num x) => floatToInt? x
  | _ => none

/-- The text of a number or a string. -/
def Value.toBytes? : Value → Option Bytes
  | .str s => some s
  | .int i => some (integerText i).toUTF8
  | .num x => some (numberText x).toUTF8
  | _ => none

/-! ## Operations -/

/-- The quotient rounded toward minus infinity; the divisor is not zero. -/
def floorDiv (a b : Int64) : Int64 := .ofInt (Int.fdiv a.toInt b.toInt)

/-- The remainder of `floorDiv`, with the sign of the divisor. -/
def floorMod (a b : Int64) : Int64 := .ofInt (Int.fmod a.toInt b.toInt)

/-- The remainder of floats, with the sign of the divisor. -/
def floatMod (a b : Float) : Float :=
  let r := Decimal.remainder a b
  if r > 0.0 then (if b < 0.0 then r + b else r)
  else if r < 0.0 then (if b > 0.0 then r + b else r)
  else r

/-- A shift by a distance of any size: bits that leave are lost, zeros come
    in; a negative distance shifts to the right. -/
def shiftLeft (a n : Int64) : Int64 :=
  let u := a.toUInt64
  let d := n.toInt
  if d ≤ -64 ∨ d ≥ 64 then 0
  else if d ≥ 0 then (u <<< UInt64.ofNat d.toNat).toInt64
  else (u >>> UInt64.ofNat (-d).toNat).toInt64

/-- The least and the greatest integer. -/
def minInteger : Int64 := .ofInt (-(Word.count 63 : Nat))

/-- The greatest integer. -/
def maxInteger : Int64 := .ofInt ((Word.count 63 : Nat) - 1)

/-- Order of an integer and a float, by value. -/
def intLtFloat (i : Int64) (x : Float) : Bool :=
  match Decimal.parts x with
  | .nan => false
  | .infinite negative => !negative
  | .finite b => decide (i.toInt < -(({ b with negative := !b.negative } : Decimal.Binary).floor))

/-- Whether an integer is at most a float, exactly. -/
def intLeFloat (i : Int64) (x : Float) : Bool :=
  match Decimal.parts x with
  | .nan => false
  | .infinite negative => !negative
  | .finite b => decide (i.toInt ≤ b.floor)

/-- Whether a float is less than an integer, exactly. -/
def floatLtInt (x : Float) (i : Int64) : Bool :=
  match Decimal.parts x with
  | .nan => false
  | .infinite negative => negative
  | .finite b => decide (b.floor < i.toInt)

/-- Whether a float is at most an integer, exactly. -/
def floatLeInt (x : Float) (i : Int64) : Bool :=
  match Decimal.parts x with
  | .nan => false
  | .infinite negative => negative
  | .finite b => decide (-(({ b with negative := !b.negative } : Decimal.Binary).floor) ≤ i.toInt)

end Reactor.Lua
