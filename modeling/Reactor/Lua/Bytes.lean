/-
  Bytes as characters.

  A text of the script language is read as a list of characters `U+0000` to
  `U+00FF`, one for each byte (`toChars`, `ofChars`).  The classes below are
  those of ASCII; no other byte belongs to any of them.
-/
import Reactor.Lua.Value
import Reactor.Text.Digits

namespace Reactor.Lua

/-- The character that stands for a byte. -/
def byteChar (b : UInt8) : Char := Char.ofNat b.toNat

/-- The bytes of a text, each as a character. -/
def toChars (s : Bytes) : List Char := s.toList.map byteChar

/-- The text with given bytes, each written as a character. -/
def ofChars (cs : List Char) : Bytes := ⟨(cs.map fun c => UInt8.ofNat c.toNat).toArray⟩

/-- The byte of an ASCII character. -/
def byteOf (c : Char) : UInt8 := UInt8.ofNat c.toNat

/-- Blank: space, tab, newline, vertical tab, form feed, carriage return. -/
def isSpace (c : Char) : Bool := c == ' ' || ('\t' ≤ c && c ≤ '\r')

/-- A small letter. -/
def isLower (c : Char) : Bool := 'a' ≤ c && c ≤ 'z'

/-- A capital letter. -/
def isUpper (c : Char) : Bool := 'A' ≤ c && c ≤ 'Z'

/-- A letter. -/
def isLetter (c : Char) : Bool := isLower c || isUpper c

/-- A letter or a digit. -/
def isAlnum (c : Char) : Bool := isLetter c || c.isDigit

/-- A digit of base sixteen. -/
def isHexDigit (c : Char) : Bool := (Text.hexValue? c).isSome

/-- A character with a shape of its own. -/
def isGraphic (c : Char) : Bool := '!' ≤ c && c ≤ '~'

/-- A character that is shown as itself, the space included. -/
def isPrintable (c : Char) : Bool := ' ' ≤ c && c ≤ '~'

/-- A character that controls a terminal. -/
def isControl (c : Char) : Bool := c < ' ' || c == '\x7f'

/-- A character that is seen and is no letter or digit. -/
def isPunctuation (c : Char) : Bool := isGraphic c && !isAlnum c

/-- The value of a hexadecimal digit; zero for another character. -/
def hexValue (c : Char) : Nat := (Text.hexValue? c).getD 0

/-- The upper-case letter of an ASCII letter. -/
def upperByte (b : UInt8) : UInt8 := if 97 ≤ b ∧ b ≤ 122 then b - 32 else b

/-- The lower-case letter of an ASCII letter. -/
def lowerByte (b : UInt8) : UInt8 := if 65 ≤ b ∧ b ≤ 90 then b + 32 else b

/-- The bytes of a code point below `2 ^ 31`, in the form that extends UTF-8
    to six bytes. -/
def wideUtf8 (x : Nat) : List Char :=
  let tail := fun (n : Nat) => (List.range n).reverse.map fun i =>
    Char.ofNat (0x80 + x / Nat.pow 64 i % 64)
  if x < 0x80 then [Char.ofNat x]
  else if x < 0x800 then Char.ofNat (0xc0 + x / 64) :: tail 1
  else if x < 0x10000 then Char.ofNat (0xe0 + x / Nat.pow 64 2) :: tail 2
  else if x < 0x200000 then Char.ofNat (0xf0 + x / Nat.pow 64 3) :: tail 3
  else if x < 0x4000000 then Char.ofNat (0xf8 + x / Nat.pow 64 4) :: tail 4
  else Char.ofNat (0xfc + x / Nat.pow 64 5) :: tail 5

/-- Lexicographic comparison by bytes. -/
def bytesLt (a b : Bytes) : Bool :=
  let rec go (fuel i : Nat) : Bool :=
    match fuel with
    | 0 => decide (a.size < b.size)
    | fuel + 1 =>
      let x := a.get! i
      let y := b.get! i
      if x == y then go fuel (i + 1) else x < y
  go (min a.size b.size) 0

end Reactor.Lua
