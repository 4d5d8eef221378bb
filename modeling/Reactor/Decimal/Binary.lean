/-
  Doubles as exact numbers.

  A finite double is `± mantissa · 2 ^ exponent`.  `parts` reads that off the
  bits; everything that has to be exact (whole parts, remainders, printing)
  works on the natural numbers it gives.

  * `parts x` is the class of `x` with its exact value;
  * `Binary.floor b` is the greatest integer that is at most `b`, `exactInt? x` the
    integer equal to `x`, if there is one;
  * `roundDiv n d` is `n / d` to the nearest natural number, a tie going to the
    even one;
  * `remainder x y` is the exact remainder of the truncated quotient.
-/

namespace Reactor.Decimal

/-- A finite binary number: `mantissa · 2 ^ exponent`, negated if `negative`. -/
structure Binary where
  negative : Bool
  mantissa : Nat
  exponent : Int
deriving DecidableEq, Repr

/-- What a double stands for. -/
inductive Parts where
  | nan
  | infinite (negative : Bool)
  | finite (b : Binary)
deriving DecidableEq, Repr

/-- The exact value of a double, read off its bits. -/
def parts (x : Float) : Parts :=
  let bits : Nat := x.toBits.toNat
  let negative := bits / Nat.pow 2 63 == 1
  let e : Nat := bits / Nat.pow 2 52 % 2048
  let f := bits % Nat.pow 2 52
  if e = 2047 then
    if f = 0 then .infinite negative else .nan
  else if e = 0 then .finite ⟨negative, f, -1074⟩
  else .finite ⟨negative, f + Nat.pow 2 52, (e : Int) - 1075⟩

/-- Neither infinite nor a NaN. -/
def isFinite (x : Float) : Bool := x.toBits.toNat / Nat.pow 2 52 % 2048 != 2047

/-- The magnitude of `b` as a fraction. -/
def Binary.fraction (b : Binary) : Nat × Nat :=
  if b.exponent < 0 then (b.mantissa, Nat.pow 2 (-b.exponent).toNat)
  else (b.mantissa * Nat.pow 2 b.exponent.toNat, 1)

/-- The greatest integer that is at most `b`. -/
def Binary.floor (b : Binary) : Int :=
  let (n, d) := b.fraction
  if b.negative then -(((n + d - 1) / d : Nat) : Int) else ((n / d : Nat) : Int)

/-- The integer equal to `b`, if `b` is whole. -/
def Binary.exactInt? (b : Binary) : Option Int :=
  let (n, d) := b.fraction
  if n % d = 0 then
    some (if b.negative then -((n / d : Nat) : Int) else ((n / d : Nat) : Int))
  else none

/-- The integer equal to a double, if it is whole. -/
def exactInt? (x : Float) : Option Int :=
  match parts x with
  | .finite b => b.exactInt?
  | _ => none

/-- An integer as a double, to the nearest. -/
def ofInt (i : Int) : Float :=
  if i < 0 then -(Float.ofScientific i.natAbs false 0) else Float.ofScientific i.natAbs false 0

/-- `2 ^ e` for an exponent in the range of the normal doubles. -/
def twoPower (e : Int) : Float :=
  Float.ofBits (UInt64.ofNat ((e + 1023).toNat * Nat.pow 2 52))

/-- `n / d` to the nearest natural number; a tie goes to the even one. -/
def roundDiv (n d : Nat) : Nat :=
  let q := n / d
  let r := n % d
  if 2 * r > d ∨ (2 * r = d ∧ q % 2 = 1) then q + 1 else q

/-- `m · 2 ^ e` to the nearest double. -/
def scaled (m : Nat) (e : Int) : Float :=
  if m = 0 then 0.0
  else
    let top : Int := e + (m.log2 : Int)
    if top > 1024 then Float.ofBits 0x7ff0000000000000
    else if top < -1080 then 0.0
    else
      -- the unit of the last place that the result can hold
      let unit : Int := max (top - 52) (-1074)
      let rounded : Nat :=
        if e ≥ unit then m * Nat.pow 2 (e - unit).toNat
        else roundDiv m (Nat.pow 2 (unit - e).toNat)
      -- at most 2 ^ 53, so the conversion is exact, and so is each product
      let x := (UInt64.ofNat rounded).toFloat
      if unit < -1000 then x * twoPower (unit + 100) * twoPower (-100)
      else if unit > 900 then x * twoPower (unit - 100) * twoPower 100
      else x * twoPower unit

/-- The nearest double to `n · 10 ^ e`. -/
def nearest (n : Nat) (e : Int) : Float :=
  -- the exponent of the first digit, or one less
  let top : Int := e + (n.log2 * 30103 / 100000 : Nat)
  if n = 0 ∨ top < -400 then 0.0
  else if top > 400 then Float.ofBits 0x7ff0000000000000
  else Float.ofScientific n (e < 0) e.natAbs

/-- The remainder of the quotient truncated toward zero; it has the sign of
    the first number.  A NaN if `y` is zero or `x` is not finite. -/
def remainder (x y : Float) : Float :=
  match parts x, parts y with
  | .finite a, .finite b =>
    if b.mantissa = 0 then 0.0 / 0.0
    else
      let e := min a.exponent b.exponent
      let m := a.mantissa * Nat.pow 2 (a.exponent - e).toNat % (b.mantissa * Nat.pow 2 (b.exponent - e).toNat)
      let r := scaled m e
      if a.negative then -r else r
  | .finite _, .infinite _ => x
  | _, _ => 0.0 / 0.0

/-- A double as a fraction, at least one half and less than one, and a power of
    two; zero and what is not finite are their own fraction. -/
def split (x : Float) : Float × Int :=
  match parts x with
  | .finite b =>
    if b.mantissa = 0 then (x, 0)
    else
      let width : Int := b.mantissa.log2 + 1
      let f := scaled b.mantissa (-width)
      (if b.negative then -f else f, b.exponent + width)
  | _ => (x, 0)

/-- A double times a power of two. -/
def shift (x : Float) (e : Int) : Float :=
  match parts x with
  | .finite b =>
    let f := scaled b.mantissa (b.exponent + e)
    if b.negative then -f else f
  | _ => x

/-- The greatest whole double that is at most `x`; what is not finite stays. -/
def floorFloat (x : Float) : Float :=
  match parts x with
  | .finite b =>
    if b.exponent ≥ 0 then x
    else
      let i := b.floor
      if i = 0 then (if b.negative then -0.0 else 0.0) else ofInt i
  | _ => x

/-- The least whole double that is at least `x`. -/
def ceilFloat (x : Float) : Float := -(floorFloat (-x))

end Reactor.Decimal
