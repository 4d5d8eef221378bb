/-
  The functions on numbers.

  Random numbers come from four words of state, shuffled by shifts and
  exclusive ors (`RandomState.next`); `project` takes a random word into an
  interval without bias.
-/
import Reactor.Lua.Library.Arguments

namespace Reactor.Lua

namespace RandomState

/-- A word with its bits moved to the left in a circle. -/
def rotate (x : UInt64) (n : UInt64) : UInt64 := (x <<< n) ||| (x >>> (64 - n))

/-- The next random word. -/
def next (g : RandomState) : UInt64 × RandomState :=
  let out := rotate (g.s1 * 5) 7 * 9
  let s2 := g.s2 ^^^ g.s0
  let s3 := g.s3 ^^^ g.s1
  (out, ⟨g.s0 ^^^ s3, g.s1 ^^^ s2, s2 ^^^ (g.s1 <<< 17), rotate s3 45⟩)

/-- Forgets a number of words. -/
def discard : Nat → RandomState → RandomState
  | 0, g => g
  | n + 1, g => discard n g.next.2

/-- The state of two seeds. -/
def seeded (a b : UInt64) : RandomState := discard 16 ⟨a, 0xff, b, 0⟩

/-- Draws until a word, cut to the bits of `mask`, is at most `n`. -/
def drawUntil (n mask : UInt64) : Nat → UInt64 → RandomState → UInt64 × RandomState
  | 0, _, g => (n, g)
  | fuel + 1, w, g =>
    let w := w &&& mask
    if w ≤ n then (w, g)
    else
      let (w, g) := g.next
      drawUntil n mask fuel w g

/-- Takes a random word into the interval from zero to `n`. -/
def project (n w : UInt64) (g : RandomState) : UInt64 × RandomState :=
  let mask := n ||| (n >>> 1)
  let mask := mask ||| (mask >>> 2)
  let mask := mask ||| (mask >>> 4)
  let mask := mask ||| (mask >>> 8)
  let mask := mask ||| (mask >>> 16)
  let mask := mask ||| (mask >>> 32)
  drawUntil n mask 100000 w g

end RandomState

namespace Library

/-- The ratio of a circle's circumference to its diameter. -/
def pi : Float := 3.141592653589793

/-- More than every number. -/
def infinity : Float := Float.ofBits 0x7ff0000000000000

/-- A whole float as an integer if it fits. -/
def wholeValue (x : Float) : Value :=
  match floatToInt? x with
  | some i => .int i
  | none => .num x

/-- The number whose comparison with all before it succeeds. -/
def extreme (better : Value → Value → Task Bool) : List Value → Value → Task Value
  | [], best => return best
  | v :: rest, best => do
    if ← better v best then extreme better rest v else extreme better rest best

/-- A random integer or float. -/
def random (a : Arguments) : Task Value := do
  let w ← Task.alloc fun h =>
    let (w, g) := h.random.next
    (w, { h with random := g })
  let within := fun (low up : Int64) => do
    if up < low then a.bad 1 "interval is empty"
    let span := up.toUInt64 - low.toUInt64
    let w ← Task.alloc fun h =>
      let (w, g) := RandomState.project span w h.random
      (w, { h with random := g })
    return Value.int (w + low.toUInt64).toInt64
  match a.values.size with
  | 0 => return .num (Decimal.scaled (w >>> 11).toNat (-53))
  | 1 =>
    let up ← a.int 1
    if up == 0 then return .int w.toInt64 else within 1 up
  | 2 =>
    let low ← a.int 1
    let up ← a.int 2
    within low up
  | _ => a.fail "wrong number of arguments"

/-- The functions of the table `math`. -/
def maths (f : Native) (a : Arguments) : Task (Array Value) := do
  let float := fun (g : Float → Float) => do
    let x ← a.num 1
    return #[Value.num (g x)]
  match f with
  | .abs =>
    match a.get 1 with
    | .int i => return #[.int (if i < 0 then -i else i)]
    | _ => float Float.abs
  | .ceil =>
    match a.get 1 with
    | .int i => return #[.int i]
    | _ => return #[wholeValue (Decimal.ceilFloat (← a.num 1))]
  | .floor =>
    match a.get 1 with
    | .int i => return #[.int i]
    | _ => return #[wholeValue (Decimal.floorFloat (← a.num 1))]
  | .sqrt => float Float.sqrt
  | .exp => float Float.exp
  | .sin => float Float.sin
  | .cos => float Float.cos
  | .tan => float Float.tan
  | .asin => float Float.asin
  | .acos => float Float.acos
  | .cosh => float Float.cosh
  | .sinh => float Float.sinh
  | .tanh => float Float.tanh
  | .log10 => float Float.log10
  | .pow => return #[.num (Float.pow (← a.num 1) (← a.num 2))]
  | .frexp =>
    let (x, e) := Decimal.split (← a.num 1)
    return #[.num x, .int (.ofInt e)]
  | .ldexp =>
    let x ← a.num 1
    return #[.num (Decimal.shift x (← a.int 2).toInt32.toInt)]
  | .atan =>
    let y ← a.num 1
    let x ← if a.isNone 2 then Pure.pure 1.0 else a.num 2
    return #[.num (Float.atan2 y x)]
  | .log =>
    let x ← a.num 1
    if a.isNone 2 then return #[.num (Float.log x)]
    let base ← a.num 2
    if base == 2.0 then return #[.num (Float.log2 x)]
    else if base == 10.0 then return #[.num (Float.log10 x)]
    else return #[.num (Float.log x / Float.log base)]
  | .deg => float (· * (180.0 / pi))
  | .rad => float (· * (pi / 180.0))
  | .fmod =>
    match a.get 1, a.get 2 with
    | .int x, .int y =>
      if y == 0 then a.bad 2 "zero"
      else return #[.int (.ofInt (Int.tmod x.toInt y.toInt))]
    | _, _ =>
      let x ← a.num 1
      let y ← a.num 2
      return #[.num (Decimal.remainder x y)]
  | .modf =>
    match a.get 1 with
    | .int i => return #[.int i, .num 0.0]
    | _ =>
      let x ← a.num 1
      let whole := if x < 0.0 then Decimal.ceilFloat x else Decimal.floorFloat x
      return #[.num whole, .num (if x == whole then 0.0 else x - whole)]
  | .max =>
    let first ← a.any 1
    return #[← extreme (fun v best => Operation.lessThan best v) (a.values.toList.drop 1) first]
  | .min =>
    let first ← a.any 1
    return #[← extreme Operation.lessThan (a.values.toList.drop 1) first]
  | .random => return #[← random a]
  | .randomseed =>
    if !a.has 1 then
      Task.change fun h => { h with random := RandomState.seeded h.random.s0 h.random.s1 }
      return #[.int 0, .int 0]
    let n ← match a.get 1 with
      | .int i => Pure.pure i
      | _ => do
        let x ← a.num 1
        Pure.pure ((floatToInt? x).getD (x.toBits.toInt64))
    let m ← a.intOr 2 0
    Task.change fun h => { h with random := RandomState.seeded n.toUInt64 m.toUInt64 }
    return #[.int n, .int m]
  | .tointeger =>
    match (a.get 1).toInt? with
    | some i => return #[.int i]
    | none =>
      let _ ← a.any 1
      return #[.nil]
  | .mathType =>
    match ← a.any 1 with
    | .int _ => return #[.ofString "integer"]
    | .num _ => return #[.ofString "float"]
    | _ => return #[.nil]
  | .ult =>
    let x ← a.int 1
    let y ← a.int 2
    return #[.bool (x.toUInt64 < y.toUInt64)]
  | _ => return #[]

end Library

end Reactor.Lua
