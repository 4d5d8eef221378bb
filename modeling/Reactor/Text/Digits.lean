/-
  Signs and digits of numerals.

  * `sign` takes the sign off a numeral; `natural?` is the number that digits are,
    after a plus or without one;
  * `hexValue?` is the value of a digit of base sixteen, of either case;
  * `hexDigit` is the digit of a value, in lower case.
-/

namespace Reactor.Text

/-- Whether a numeral is negative, and what follows its sign. -/
def sign : List Char → Bool × List Char
  | '-' :: r => (true, r)
  | '+' :: r => (false, r)
  | r => (false, r)

/-- A natural number, which may have a plus in front. -/
def natural? (cs : List Char) : Option Nat :=
  let digits := match cs with
    | '+' :: r => r
    | r => r
  if !digits.isEmpty && digits.all Char.isDigit then some (Nat.ofDigitChars 10 digits 0) else none

/-- The value of a hexadecimal digit. -/
def hexValue? (c : Char) : Option Nat :=
  if c.isDigit then some (c.toNat - 48)
  else if 'a' ≤ c ∧ c ≤ 'f' then some (c.toNat - 87)
  else if 'A' ≤ c ∧ c ≤ 'F' then some (c.toNat - 55)
  else none

/-- The hexadecimal digit of a number below sixteen. -/
def hexDigit (n : Nat) : Char := if n < 10 then Char.ofNat (n + 48) else Char.ofNat (n + 87)

end Reactor.Text
