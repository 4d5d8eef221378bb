/-
  The compact text of JSON.

  A float has the fewest digits that read back, always a point or an exponent;
  it is written out between `1e-5` and `1e16`.  In a string the control
  characters, the quote and the backslash are escaped, everything else stands
  for itself.
-/
import Reactor.Json.Value
import Reactor.Decimal.Digits
import Reactor.Text.Digits

namespace Reactor.Json

/-- Where floats are written out: exponents of their first digit. -/
def leastPlain : Int := -5

/-- From ten to this power on, numbers have an exponent. -/
def mostPlain : Int := 16

/-- The digits of a magnitude with the exponent of the first, written out or
    with an exponent. -/
def digitsText (digits : Nat) (e : Int) : List Char :=
  let ds := Decimal.trimZeros digits
  if e < leastPlain ∨ e ≥ mostPlain then
    let mantissa := match ds with
      | [d] => [d]
      | d :: rest => d :: '.' :: rest
      | [] => []
    mantissa ++ 'e' :: (if e < 0 then '-' else '+') :: Nat.toDigits 10 e.natAbs
  else if e < 0 then
    '0' :: '.' :: (List.replicate (-e - 1).toNat '0' ++ ds)
  else
    let n := e.toNat + 1
    let whole := ds.take n ++ List.replicate (n - ds.length) '0'
    let frac := ds.drop n
    whole ++ '.' :: (if frac.isEmpty then ['0'] else frac)

/-- The text of a float; one that is not finite is no JSON. -/
def floatText (x : Float) : String :=
  match Decimal.parts x with
  | .finite b =>
    let (digits, e) := Decimal.shortest b
    let out := digitsText digits e
    String.ofList (if b.negative then '-' :: out else out)
  | _ => "null"

/-- A character inside a string. -/
def escapeChar (c : Char) : List Char :=
  if c == '"' then ['\\', '"']
  else if c == '\\' then ['\\', '\\']
  else if c.toNat ≥ 32 then [c]
  else if c == '\n' then ['\\', 'n']
  else if c == '\r' then ['\\', 'r']
  else if c == '\t' then ['\\', 't']
  else if c == '\x08' then ['\\', 'b']
  else if c == '\x0c' then ['\\', 'f']
  else ['\\', 'u', '0', '0', Text.hexDigit (c.toNat / 16), Text.hexDigit (c.toNat % 16)]

/-- A string in quotes, added to a text. -/
def appendQuoted (out s : String) : String :=
  (s.foldl (fun out c => (escapeChar c).foldl String.push out) (out.push '"')).push '"'

mutual

/-- Adds the text of a value to another. -/
def append (out : String) : Json → String
  | .null => out ++ "null"
  | .bool b => out ++ (if b then "true" else "false")
  | .int i => out ++ toString i
  | .float x => out ++ floatText x
  | .str s => appendQuoted out s
  | .arr items => (appendItems (out.push '[') true items).push ']'
  | .obj fields => (appendFields (out.push '\x7b') true fields).push '\x7d'

/-- Adds the items of a list, with commas between. -/
def appendItems (out : String) (first : Bool) : List Json → String
  | [] => out
  | j :: r => appendItems (append (if first then out else out.push ',') j) false r

/-- Adds the fields of an object, with commas between. -/
def appendFields (out : String) (first : Bool) : List (String × Json) → String
  | [] => out
  | (k, j) :: r =>
    appendFields (append ((appendQuoted (if first then out else out.push ',') k).push ':') j) false r

end

/-- The compact text of a value. -/
def compress (j : Json) : String := append "" j

end Reactor.Json
