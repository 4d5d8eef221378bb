/-
  Reading numbers and times.

  Underscores may stand between digits.  An integer has 64 bits with a sign; a
  decimal one has no zeros in front, and one of base 2, 8 or 16 has no sign.  A
  float has a fraction or an exponent.  A date is one of the calendar.

  * `integer` and `float` read numbers, `moment` reads a date, a time of day, or
    both.
-/
import Reactor.Decimal.Binary
import Reactor.Text.Digits
import Reactor.Toml.Value
import Reactor.Word

namespace Reactor.Toml

/-! ## Digits -/

/-- The value of a digit in a base. -/
def digitValue? (base : Nat) (c : Char) : Option Nat :=
  (Text.hexValue? c).filter (· < base)

/-- The digits after some, which underscores may divide. -/
def moreDigits (base : Nat) : List Char → List Char × List Char
  | '_' :: c :: r =>
    if (digitValue? base c).isSome then
      let (ds, r) := moreDigits base r
      (c :: ds, r)
    else ([], '_' :: c :: r)
  | c :: r =>
    if (digitValue? base c).isSome then
      let (ds, r) := moreDigits base r
      (c :: ds, r)
    else ([], c :: r)
  | [] => ([], [])

/-- At least one digit. -/
def digits (base : Nat) : List Char → Option (List Char × List Char)
  | c :: r =>
    if (digitValue? base c).isSome then
      let (ds, r) := moreDigits base r
      some (c :: ds, r)
    else none
  | [] => none

/-- The number that digits are. -/
def valueOf (base : Nat) (ds : List Char) : Nat :=
  ds.foldl (fun n c => n * base + (digitValue? base c).getD 0) 0

/-- The digits of a whole number: a zero, or digits without zeros in front. -/
def whole : List Char → Option (List Char × List Char)
  | '0' :: r => some (['0'], r)
  | cs => digits 10 cs

/-! ## Numbers -/

/-- A number, if it has 64 bits with a sign. -/
def fitting? (i : Int) : Option Int := if Word.isSigned i then some i else none

/-- A number of a base, after its mark. -/
def based (base : Nat) (cs : List Char) : Option (Int × List Char) := do
  let (ds, r) ← digits base cs
  return (← fitting? (valueOf base ds), r)

/-- An integer, with what follows it. -/
def integer (cs : List Char) : Option (Int × List Char) :=
  match cs with
  | '0' :: 'x' :: r => based 16 r
  | '0' :: 'o' :: r => based 8 r
  | '0' :: 'b' :: r => based 2 r
  | cs => do
    let (negative, r) := Text.sign cs
    let (ds, r) ← whole r
    let n : Int := valueOf 10 ds
    return (← fitting? (if negative then -n else n), r)

/-- The exponent of a float. -/
def exponent (cs : List Char) : Option (Int × List Char) :=
  match cs with
  | c :: r =>
    if c = 'e' ∨ c = 'E' then do
      let (negative, r) := Text.sign r
      let (ds, r) ← digits 10 r
      let n : Int := valueOf 10 ds
      return (if negative then -n else n, r)
    else none
  | [] => none

/-- The digits of a fraction and the exponent, of which one must be there. -/
def fractionAndExponent (cs : List Char) : Option ((List Char × Int) × List Char) :=
  match cs with
  | '.' :: r => do
    let (ds, r) ← digits 10 r
    match exponent r with
    | some (e, r) => return ((ds, e), r)
    | none => return ((ds, 0), r)
  | cs => do
    let (e, r) ← exponent cs
    return (([], e), r)

/-- A float; one that is too large is refused. -/
def float (cs : List Char) : Option (Float × List Char) :=
  let (negative, r) := Text.sign cs
  let signed := fun (x : Float) => if negative then -x else x
  match r with
  | 'i' :: 'n' :: 'f' :: r => some (signed (Float.ofBits 0x7ff0000000000000), r)
  | 'n' :: 'a' :: 'n' :: r => some (signed (Float.ofBits 0x7ff8000000000000), r)
  | r => do
    let (ds, r) ← whole r
    let ((fraction, e), r) ← fractionAndExponent r
    let x := Decimal.nearest (valueOf 10 (ds ++ fraction)) (e - fraction.length)
    if Decimal.isFinite x || negative then return (signed x, r) else none

/-! ## Times -/

/-- A number of exactly so many digits. -/
def fixedDigits (count : Nat) (cs : List Char) : Option (Nat × List Char) :=
  let ds := cs.take count
  if ds.length = count ∧ ds.all Char.isDigit then some (valueOf 10 ds, cs.drop count) else none

/-- What follows a character. -/
def mark (c : Char) : List Char → Option (List Char)
  | d :: r => if c = d then some r else none
  | [] => none

/-- How many days a month has. -/
def daysIn (year month : Nat) : Nat :=
  if month = 2 then
    if year % 4 = 0 ∧ (year % 100 ≠ 0 ∨ year % 400 = 0) then 29 else 28
  else if month = 4 ∨ month = 6 ∨ month = 9 ∨ month = 11 then 30
  else 31

/-- A date, with what follows it. -/
def date (cs : List Char) : Option (Date × List Char) := do
  let (year, r) ← fixedDigits 4 cs
  let (month, r) ← fixedDigits 2 (← mark '-' r)
  let (day, r) ← fixedDigits 2 (← mark '-' r)
  if 1 ≤ month ∧ month ≤ 12 ∧ 1 ≤ day ∧ day ≤ daysIn year month then
    return (⟨year, month, day⟩, r)
  else none

/-- An hour and a minute. -/
def hourAndMinute (cs : List Char) : Option ((Nat × Nat) × List Char) := do
  let (hour, r) ← fixedDigits 2 cs
  let (minute, r) ← fixedDigits 2 (← mark ':' r)
  if hour ≤ 23 ∧ minute ≤ 59 then return ((hour, minute), r) else none

/-- The fraction of a second; empty if there is none. -/
def secondFraction (cs : List Char) : List Char × List Char :=
  match cs with
  | '.' :: r =>
    let ds := r.takeWhile Char.isDigit
    if ds.isEmpty then ([], cs) else (ds, r.dropWhile Char.isDigit)
  | cs => ([], cs)

/-- A time of day; a minute may have a leap second. -/
def clock (cs : List Char) : Option (Clock × List Char) := do
  let ((hour, minute), r) ← hourAndMinute cs
  let (second, r) ← fixedDigits 2 (← mark ':' r)
  let (fraction, r) := secondFraction r
  if second ≤ 60 then return (⟨hour, minute, second, fraction⟩, r) else none

/-- The minutes by which a time is ahead of universal time. -/
def offset (cs : List Char) : Option (Int × List Char) :=
  match cs with
  | 'Z' :: r | 'z' :: r => some (0, r)
  | '+' :: r => do
    let ((hour, minute), r) ← hourAndMinute r
    return ((hour * 60 + minute : Nat), r)
  | '-' :: r => do
    let ((hour, minute), r) ← hourAndMinute r
    return (-(hour * 60 + minute : Nat), r)
  | _ => none

/-- The time of day after a date. -/
def afterDate (cs : List Char) : Option (Clock × List Char) :=
  match cs with
  | 'T' :: r | 't' :: r | ' ' :: r => clock r
  | _ => none

/-- A date, a time of day, or both. -/
def moment (cs : List Char) : Option (Moment × List Char) :=
  match date cs with
  | some (d, r) =>
    match afterDate r with
    | some (t, r) =>
      match offset r with
      | some (o, r) => some (⟨some d, some t, some o⟩, r)
      | none => some (⟨some d, some t, none⟩, r)
    | none => some (⟨some d, none, none⟩, r)
  | none => (clock cs).map fun (t, r) => (⟨none, some t, none⟩, r)

end Reactor.Toml
