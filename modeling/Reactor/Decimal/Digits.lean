/-
  Decimal digits of exact numbers.

  * `significant n d k` are the `k` significant digits of `n / d`, with the
    exponent of the first;
  * `shortest b` are the fewest digits that read back as the double `b`, and of
    those the nearest.
-/
import Reactor.Decimal.Binary

namespace Reactor.Decimal

/-- `n · 10 ^ e` over `d`, as a fraction. -/
def scaleTen (n d : Nat) (e : Int) : Nat × Nat :=
  if e < 0 then (n, d * Nat.pow 10 (-e).toNat) else (n * Nat.pow 10 e.toNat, d)

/-- Whether `10 ^ e ≤ n / d`. -/
def tenPowerLe (e : Int) (n d : Nat) : Bool :=
  if e < 0 then decide (d ≤ n * Nat.pow 10 (-e).toNat) else decide (d * Nat.pow 10 e.toNat ≤ n)

/-- Goes down from a guess until `10 ^ e ≤ n / d`. -/
def lowerExponent (n d : Nat) : Nat → Int → Int
  | 0, e => e
  | fuel + 1, e => if tenPowerLe e n d then e else lowerExponent n d fuel (e - 1)

/-- The exponent of the first decimal digit of `n / d`, both positive: the
    greatest `e` with `10 ^ e ≤ n / d`. -/
def leadingExponent (n d : Nat) : Int :=
  let bits : Int := (n.log2 : Int) - (d.log2 : Int) + 1
  -- the guess is at most two too high
  lowerExponent n d 8 (bits * 30103 / 100000 + 1)

/-- The `k` significant digits of `n / d` to the nearest, ties to even, as a
    natural number of exactly `k` digits, with the exponent of the first. -/
def significant (n d k : Nat) : Nat × Int :=
  if n = 0 then (0, 0)
  else
    let e := leadingExponent n d
    let (a, b) := scaleTen n d (k - 1 - e)
    let r := roundDiv a b
    if r = Nat.pow 10 k then (Nat.pow 10 (k - 1), e + 1) else (r, e)

/-- The interval of the numbers that round to a double: its ends as multiples
    of `2 ^ (exponent - 2)`, with whether the ends belong to it. -/
def Binary.interval (b : Binary) : Nat × Nat × Bool :=
  let m := b.mantissa
  let low := if m = Nat.pow 2 52 ∧ b.exponent > -1074 then 4 * m - 1 else 4 * m - 2
  (low, 4 * m + 2, m % 2 = 0)

/-- Whether `c · 10 ^ g` lies in the interval of `b`. -/
def Binary.covers (b : Binary) (c : Nat) (g : Int) : Bool :=
  let (low, high, closed) := b.interval
  -- compare c * 10^g with bound * 2^(exponent - 2)
  let q := b.exponent - 2
  let l := c * (if g ≥ 0 then Nat.pow 10 g.toNat else 1) * (if q < 0 then Nat.pow 2 (-q).toNat else 1)
  let unit := (if g < 0 then Nat.pow 10 (-g).toNat else 1) * (if q ≥ 0 then Nat.pow 2 q.toNat else 1)
  if closed then decide (low * unit ≤ l) && decide (l ≤ high * unit)
  else decide (low * unit < l) && decide (l < high * unit)

/-- Tries one more digit until a neighbour of the value on the grid of that
    many digits reads back. -/
def shortestFrom (b : Binary) (n d : Nat) (e : Int) : Nat → Nat → Nat × Int
  | 0, k => significant n d k
  | fuel + 1, k =>
    let g : Int := e + 1 - k
    let (p, q) := scaleTen n d (-g)
    let lo := p / q
    let r := p % q
    let below := b.covers lo g
    let above := b.covers (lo + 1) g
    let pick : Option Nat :=
      if r = 0 then some lo
      else if below && above then
        some (roundDiv p q)
      else if below then some lo
      else if above then some (lo + 1)
      else none
    match pick with
    | some c => if c = Nat.pow 10 k then (Nat.pow 10 (k - 1), e + 1) else (c, e)
    | none => shortestFrom b n d e fuel (k + 1)

/-- The fewest significant digits that read back as `b`, the nearest of them,
    with the exponent of the first digit. -/
def shortest (b : Binary) : Nat × Int :=
  if b.mantissa = 0 then (0, 0)
  else
    let (n, d) := b.fraction
    shortestFrom b n d (leadingExponent n d) 17 1

/-- The decimal digits of `n`, without trailing zeros (but at least one). -/
def trimZeros (n : Nat) : List Char :=
  let ds := (Nat.toDigits 10 n).reverse.dropWhile (· == '0')
  if ds.isEmpty then ['0'] else ds.reverse

/-- `n` in base ten, filled with zeros in front to `width` digits. -/
def padded (width n : Nat) : List Char :=
  let ds := Nat.toDigits 10 n
  List.replicate (width - ds.length) '0' ++ ds

end Reactor.Decimal
