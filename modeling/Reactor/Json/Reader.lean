/-
  Reading JSON.

  Readers take a text from its front and give what they read with the rest.  A
  text that ends too early and one that is no JSON are told apart.  Values nest
  at most 127 deep; what is skipped may nest without limit.

  * `value` reads a value, `skip` passes one over;
  * `number` takes the digits of a numeral as one integer, of at most 64 bits,
    and scales it by powers of ten;
  * `whole` reads a text that holds one value and blanks.
-/
import Reactor.Decimal.Binary
import Reactor.Json.Value
import Reactor.Text.Digits
import Reactor.Word

namespace Reactor.Json

/-- What is wrong with a text. -/
inductive ReadError where
  /-- it is no JSON -/
  | malformed
  /-- it ends too early -/
  | ended
  /-- it is JSON, but not of the shape that was asked for -/
  | shape (message : String)
deriving DecidableEq, Inhabited

/-- What is read, with the rest of the text. -/
abbrev Read (α : Type) := Except ReadError (α × List Char)

namespace Reader

/-- Space, tab, newline, carriage return. -/
def isBlank (c : Char) : Bool := c == ' ' || c == '\n' || c == '\t' || c == '\r'

/-- What remains after blanks. -/
def skipBlanks (cs : List Char) : List Char := cs.dropWhile isBlank

/-- The error for a character that should not be there, or for the end. -/
def unexpected {α : Type} : List Char → Except ReadError α
  | [] => .error .ended
  | _ :: _ => .error .malformed

/-- The rest of a word. -/
def word : List Char → List Char → Except ReadError (List Char)
  | [], cs => .ok cs
  | w :: ws, c :: cs => if w == c then word ws cs else .error .malformed
  | _ :: _, [] => .error .ended

/-! ## Strings -/

/-- Four hexadecimal digits. -/
def hex4 : List Char → Read Nat
  | a :: b :: c :: d :: r =>
    match Text.hexValue? a, Text.hexValue? b, Text.hexValue? c, Text.hexValue? d with
    | some a, some b, some c, some d => .ok (((a * 16 + b) * 16 + c) * 16 + d, r)
    | _, _, _, _ => .error .malformed
  | _ => .error .ended

/-- The character after `\u`, with the second half of a pair. -/
def unicodeEscape (cs : List Char) : Except ReadError (Char × List Char) := do
  let (n, r) ← hex4 cs
  if 0xDC00 ≤ n ∧ n ≤ 0xDFFF then .error .malformed
  else if 0xD800 ≤ n ∧ n ≤ 0xDBFF then
    match r with
    | '\\' :: 'u' :: r =>
      let (m, r) ← hex4 r
      if 0xDC00 ≤ m ∧ m ≤ 0xDFFF then
        .ok (Char.ofNat (0x10000 + (n - 0xD800) * 0x400 + (m - 0xDC00)), r)
      else .error .malformed
    | ['\\'] => .error .ended
    | [] => .error .ended
    | _ => .error .malformed
  else .ok (Char.ofNat n, r)

/-- The character of a one-letter escape. -/
def simpleEscape? : Char → Option Char
  | '"' => some '"' | '\\' => some '\\' | '/' => some '/' | 'b' => some '\x08'
  | 'f' => some '\x0c' | 'n' => some '\n' | 'r' => some '\r' | 't' => some '\t'
  | _ => none

/-- The rest of a string after its opening quote; `acc` is what was read,
    reversed. -/
def stringFrom : Nat → List Char → List Char → Read String
  | 0, _, _ => .error .ended
  | _ + 1, _, [] => .error .ended
  | fuel + 1, acc, c :: r =>
    if c == '"' then .ok (String.ofList acc.reverse, r)
    else if c == '\\' then
      match r with
      | [] => .error .ended
      | 'u' :: r =>
        match unicodeEscape r with
        | .ok (d, r) => stringFrom fuel (d :: acc) r
        | .error e => .error e
      | d :: r =>
        match simpleEscape? d with
        | some d => stringFrom fuel (d :: acc) r
        | none => .error .malformed
    else if c.toNat < 32 then .error .malformed
    else stringFrom fuel (c :: acc) r

/-- The rest of a string after its opening quote. -/
def string (cs : List Char) : Read String := stringFrom (cs.length + 1) [] cs

/-- Passes over the rest of a string; halves of pairs may stand alone. -/
def skipString : Nat → List Char → Except ReadError (List Char)
  | 0, _ => .error .ended
  | _ + 1, [] => .error .ended
  | fuel + 1, c :: r =>
    if c == '"' then .ok r
    else if c == '\\' then
      match r with
      | [] => .error .ended
      | 'u' :: r =>
        match hex4 r with
        | .ok (_, r) => skipString fuel r
        | .error e => .error e
      | d :: r => if (simpleEscape? d).isSome then skipString fuel r else .error .malformed
    else if c.toNat < 32 then .error .malformed
    else skipString fuel r

/-! ## Numbers -/

/-- A decimal numeral: its digits as one number cut to 64 bits, and the power of
    ten that scales it; `isWhole` if it has no fraction, no exponent, and fits. -/
structure Numeral where
  negative : Bool
  significand : Nat
  exponent : Int
  isWhole : Bool

/-- Takes digits into a significand of at most 64 bits: the significand, how
    many were taken, how many were left over, and the rest. -/
def takeDigits : Nat → Nat → Nat → List Char → Nat × Nat × Nat × List Char
  | n, taken, skipped, c :: r =>
    if c.isDigit then
      let m := n * 10 + (c.toNat - 48)
      if skipped = 0 ∧ m < Word.count 64 then takeDigits m (taken + 1) 0 r else takeDigits n taken (skipped + 1) r
    else (n, taken, skipped, c :: r)
  | n, taken, skipped, [] => (n, taken, skipped, [])

/-- The exponent after its mark. -/
def exponent (cs : List Char) : Read (Bool × Nat) :=
  let (negative, r) := Text.sign cs
  match r with
  | [] => .error .ended
  | c :: _ =>
    if c.isDigit then
      let ds := r.takeWhile Char.isDigit
      -- so many digits are far more than any exponent of a number has
      let n := Nat.ofDigitChars 10 ((ds.dropWhile (· == '0')).take 11) 0
      .ok ((negative, n), r.dropWhile Char.isDigit)
    else .error .malformed

/-- A numeral after its sign. -/
def numeral (negative : Bool) (cs : List Char) : Except ReadError (Numeral × List Char) := do
  match cs with
  | [] => .error .ended
  | c :: r =>
    if !c.isDigit then .error .malformed
    else if c == '0' && (r.take 1).any Char.isDigit then .error .malformed
    else
      let (n, _, skipped, r) := takeDigits 0 0 0 cs
      let (n, e, isWhole, r) ← (match r with
        | '.' :: r =>
          match r with
          | [] => .error .ended
          | d :: _ =>
            if d.isDigit then
              let (m, taken, _, r) := takeDigits n 0 0 r
              .ok (m, (skipped : Int) - taken, false, r)
            else .error .malformed
        | r => .ok (n, (skipped : Int), skipped == 0, r) : Except ReadError (Nat × Int × Bool × List Char))
      match r with
      | m :: r' =>
        if m == 'e' || m == 'E' then
          let ((down, k), r) ← exponent r'
          .ok (⟨negative, n, if down then e - k else e + k, false⟩, r)
        else .ok (⟨negative, n, e, isWhole⟩, r)
      | [] => .ok (⟨negative, n, e, isWhole⟩, [])

/-- `x` scaled by a power of ten, in steps of at most `10 ^ 308`; `none` if it
    is too large. -/
def scale : Nat → Float → Int → Option Float
  | 0, x, _ => some x
  | fuel + 1, x, e =>
    if e ≥ 0 then
      if x == 0.0 then some x
      else if e > 308 then none
      else
        let y := x * Float.ofScientific 1 false e.toNat
        if Decimal.isFinite y then some y else none
    else if e ≥ -308 then some (x / Float.ofScientific 1 false (-e).toNat)
    else if x == 0.0 then some x
    else scale fuel (x / Float.ofScientific 1 false 308) (e + 308)

/-- The value of a numeral. -/
def Numeral.value (n : Numeral) : Except ReadError Json :=
  if n.isWhole ∧ !n.negative then .ok (.int n.significand)
  else if n.isWhole ∧ 0 < n.significand ∧ n.significand ≤ Word.count 63 then .ok (.int (-n.significand))
  else
    match scale 40 (UInt64.ofNat n.significand).toFloat (max n.exponent (-12000)) with
    | some x => .ok (.float (if n.negative then -x else x))
    | none => .error .malformed

/-- A number whose first character is a digit or a minus sign. -/
def number (cs : List Char) : Except ReadError (Json × List Char) := do
  let (n, r) ← match cs with
    | '-' :: r => numeral true r
    | r => numeral false r
  .ok (← n.value, r)

/-- Passes over a number, however large. -/
def skipNumber (cs : List Char) : Except ReadError (List Char) := do
  let (_, r) ← match cs with
    | '-' :: r => numeral true r
    | r => numeral false r
  .ok r

/-! ## Values -/

/-- How deep values nest. -/
def maxDepth : Nat := 127

mutual

/-- A value; `depth` is how much deeper it may nest. -/
def valueFrom : Nat → Nat → List Char → Read Json
  | 0, _, _ => .error .ended
  | fuel + 1, depth, cs =>
    match skipBlanks cs with
    | [] => .error .ended
    | 'n' :: r => (word ['u', 'l', 'l'] r).map (.null, ·)
    | 't' :: r => (word ['r', 'u', 'e'] r).map (.bool true, ·)
    | 'f' :: r => (word ['a', 'l', 's', 'e'] r).map (.bool false, ·)
    | '"' :: r => (string r).map fun (s, r) => (.str s, r)
    | '[' :: r =>
      match depth with
      | 0 => .error .malformed
      | depth + 1 =>
        match skipBlanks r with
        | ']' :: r => .ok (.arr [], r)
        | r => itemsFrom fuel depth [] r
    | '\x7b' :: r =>
      match depth with
      | 0 => .error .malformed
      | depth + 1 =>
        match skipBlanks r with
        | '\x7d' :: r => .ok (.obj [], r)
        | r => fieldsFrom fuel depth [] r
    | c :: r => if c == '-' || c.isDigit then number (c :: r) else .error .malformed

/-- The items of a list, of which there is at least one more. -/
def itemsFrom : Nat → Nat → List Json → List Char → Read Json
  | 0, _, _, _ => .error .ended
  | fuel + 1, depth, acc, cs =>
    match valueFrom fuel depth cs with
    | .error e => .error e
    | .ok (v, r) =>
      match skipBlanks r with
      | ']' :: r => .ok (.arr (v :: acc).reverse, r)
      | ',' :: r =>
        match skipBlanks r with
        | [] => .error .ended
        | r => itemsFrom fuel depth (v :: acc) r
      | r => unexpected r

/-- The fields of an object, of which there is at least one more. -/
def fieldsFrom : Nat → Nat → List (String × Json) → List Char → Read Json
  | 0, _, _, _ => .error .ended
  | fuel + 1, depth, acc, cs =>
    match skipBlanks cs with
    | '"' :: r =>
      match string r with
      | .error e => .error e
      | .ok (k, r) =>
        match skipBlanks r with
        | ':' :: r =>
          match valueFrom fuel depth r with
          | .error e => .error e
          | .ok (v, r) =>
            match skipBlanks r with
            | '\x7d' :: r => .ok (.mkObj ((k, v) :: acc).reverse, r)
            | ',' :: r => fieldsFrom fuel depth ((k, v) :: acc) r
            | r => unexpected r
        | r => unexpected r
    | r => unexpected r

end

/-- A value at the front of a text; `depth` is how much deeper it may nest. -/
def value (depth : Nat) (cs : List Char) : Read Json := valueFrom (2 * cs.length + 2) depth cs

/-- What encloses a value that is passed over. -/
inductive Bracket where
  | list
  | object
deriving DecidableEq

/-- Passes over the name of a field and its colon. -/
def skipName (cs : List Char) : Except ReadError (List Char) :=
  match skipBlanks cs with
  | '"' :: r => do
    let r ← skipString (r.length + 1) r
    match skipBlanks r with
    | ':' :: r => .ok r
    | r => unexpected r
  | r => unexpected r

mutual

/-- Passes over a value inside some brackets, and what follows it in them. -/
def skipFrom : Nat → List Bracket → List Char → Except ReadError (List Char)
  | 0, _, _ => .error .ended
  | fuel + 1, open_, cs =>
    match skipBlanks cs with
    | [] => .error .ended
    | 'n' :: r => do skipAfter fuel open_ (← word ['u', 'l', 'l'] r)
    | 't' :: r => do skipAfter fuel open_ (← word ['r', 'u', 'e'] r)
    | 'f' :: r => do skipAfter fuel open_ (← word ['a', 'l', 's', 'e'] r)
    | '"' :: r => do skipAfter fuel open_ (← skipString (r.length + 1) r)
    | '[' :: r =>
      match skipBlanks r with
      | ']' :: r => skipAfter fuel open_ r
      | r => skipFrom fuel (.list :: open_) r
    | '\x7b' :: r =>
      match skipBlanks r with
      | '\x7d' :: r => skipAfter fuel open_ r
      | r => do skipFrom fuel (.object :: open_) (← skipName r)
    | c :: r =>
      if c == '-' || c.isDigit then do skipAfter fuel open_ (← skipNumber (c :: r))
      else .error .malformed

/-- Passes over what follows a value in its brackets. -/
def skipAfter : Nat → List Bracket → List Char → Except ReadError (List Char)
  | 0, _, _ => .error .ended
  | _ + 1, [], cs => .ok cs
  | fuel + 1, .list :: open_, cs =>
    match skipBlanks cs with
    | ']' :: r => skipAfter fuel open_ r
    | ',' :: r => skipFrom fuel (.list :: open_) r
    | r => unexpected r
  | fuel + 1, .object :: open_, cs =>
    match skipBlanks cs with
    | '\x7d' :: r => skipAfter fuel open_ r
    | ',' :: r => do skipFrom fuel (.object :: open_) (← skipName r)
    | r => unexpected r

end

/-- Passes over a value. -/
def skip (cs : List Char) : Except ReadError (List Char) := skipFrom (2 * cs.length + 2) [] cs

/-- What a reader reads from a text that holds nothing else but blanks. -/
def whole {α : Type} (read : List Char → Read α) (text : String) : Except ReadError α := do
  let (a, r) ← read text.toList
  match skipBlanks r with
  | [] => .ok a
  | _ => .error .malformed

end Reader

/-- The value that a text holds. -/
def parse (text : String) : Except ReadError Json := Reader.whole (Reader.value Reader.maxDepth) text

end Reactor.Json
