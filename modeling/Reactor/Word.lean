/-
  Words of some bits.

  * `Word.count` is how many values a word has;
  * `Word.isSigned` says whether an integer is one of 64 bits with a sign.
-/

namespace Reactor.Word

/-- How many values a word of so many bits has. -/
def count (bits : Nat) : Nat := Nat.pow 2 bits

/-- Whether an integer fits a word of 64 bits with a sign. -/
def isSigned (i : Int) : Bool := decide (-(count 63 : Int) ≤ i) && decide (i < count 63)

/-- Equality of bytes is decided byte by byte, whatever other instances are in
    scope. -/
instance bytesDecidableEq : DecidableEq ByteArray := ByteArray.instDecidableEq

end Reactor.Word
