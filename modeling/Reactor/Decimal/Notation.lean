/-
  Written forms of a magnitude.

  All of them take the exact value and round once, to the nearest, a tie going
  to the even digit.  The sign is written by the caller.

  * `fixed` has a given number of places after the point;
  * `scientific` has one digit before the point and an exponent of at least two
    digits;
  * `general` is the shorter of the two for a given number of significant
    digits, without trailing zeros;
  * `hexadecimal` is `0xh.hhhp±d`.
-/
import Reactor.Decimal.Digits
import Reactor.Text.Digits

namespace Reactor.Decimal

/-- A point and the digits after it; `alt` keeps the point of an empty
    fraction. -/
def fraction (alt : Bool) (ds : List Char) : List Char :=
  if ds.isEmpty && !alt then [] else '.' :: ds

/-- `b` with `places` digits after the point. -/
def fixed (b : Binary) (places : Nat) (alt : Bool) : List Char :=
  let (n, d) := b.fraction
  let r := roundDiv (n * Nat.pow 10 places) d
  let ds := padded (places + 1) r
  ds.take (ds.length - places) ++ fraction alt (ds.drop (ds.length - places))

/-- A decimal exponent: its mark, its sign and at least two digits. -/
def exponentPart (mark : Char) (e : Int) : List Char :=
  mark :: (if e < 0 then '-' else '+') :: padded 2 e.natAbs

/-- `b` with one digit before the point and `places` after it. -/
def scientific (b : Binary) (places : Nat) (alt : Bool) (mark : Char) : List Char :=
  let (n, d) := b.fraction
  let (r, e) := significant n d (places + 1)
  let ds := padded (places + 1) r
  ds.take 1 ++ fraction alt (ds.drop 1) ++ exponentPart mark e

/-- Drops the zeros at the end of a list of digits. -/
def dropTrailingZeros (ds : List Char) : List Char :=
  (ds.reverse.dropWhile (· == '0')).reverse

/-- `b` with `precision` significant digits: positional if the exponent of the
    first digit is at least `-4` and below the precision, else scientific.
    Without `alt` zeros at the end of the fraction are dropped. -/
def general (b : Binary) (precision : Nat) (alt : Bool) (mark : Char) : List Char :=
  let p := if precision = 0 then 1 else precision
  let (n, d) := b.fraction
  let (r, e) := significant n d p
  let ds := padded p r
  let trim := fun (fs : List Char) => if alt then fs else dropTrailingZeros fs
  if e < -4 ∨ e ≥ (p : Int) then
    ds.take 1 ++ fraction alt (trim (ds.drop 1)) ++ exponentPart mark e
  else if e < 0 then
    '0' :: fraction alt (trim (List.replicate (-e - 1).toNat '0' ++ ds))
  else
    ds.take (e.toNat + 1) ++ fraction alt (trim (ds.drop (e.toNat + 1)))

/-- `n` in base sixteen, filled with zeros in front to `width` digits. -/
def paddedHex (width n : Nat) : List Char :=
  let ds := Nat.toDigits 16 n
  List.replicate (width - ds.length) '0' ++ ds

/-- `b` as a hexadecimal fraction with a binary exponent; with `places` digits
    after the point, or with as many as it needs. -/
def hexadecimal (b : Binary) (places : Option Nat) (alt : Bool) : List Char :=
  -- the leading digit is 1, or 0 for a number below the normal ones
  let normal := b.mantissa ≥ Nat.pow 2 52
  let lead := if normal then 1 else 0
  let e : Int := if b.mantissa = 0 then 0 else b.exponent + 52
  let frac := b.mantissa % Nat.pow 2 52
  let (lead, ds) : Nat × List Char :=
    match places with
    | none => (lead, dropTrailingZeros (paddedHex 13 frac))
    | some k =>
      if k ≥ 13 then (lead, paddedHex 13 frac ++ List.replicate (k - 13) '0')
      else
        let r := roundDiv (lead * Nat.pow 2 52 + frac) (Nat.pow 2 (52 - 4 * k))
        (r / Nat.pow 16 k, if k = 0 then [] else paddedHex k (r % Nat.pow 16 k))
  '0' :: 'x' :: Text.hexDigit lead :: fraction alt ds
    ++ ('p' :: (if e < 0 then '-' else '+') :: Nat.toDigits 10 e.natAbs)

end Reactor.Decimal
