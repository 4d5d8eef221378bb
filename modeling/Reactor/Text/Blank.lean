/-
  Blank characters: spaces of every width, tabs, and ends of lines.
-/
import Reactor.Text.Ranges

namespace Reactor.Text

/-- The blank characters. -/
def blankRanges : List (Nat × Nat) :=
  [(9, 13), (32, 32), (133, 133), (160, 160), (5760, 5760), (8192, 8202), (8232, 8233),
    (8239, 8239), (8287, 8287), (12288, 12288)]

/-- A character that is a blank. -/
def isBlankChar (c : Char) : Bool := inRanges blankRanges c

/-- Whether a text holds nothing but blanks. -/
def isBlank (s : String) : Bool := s.toList.all isBlankChar

/-- A text without the blanks around it. -/
def trim (cs : List Char) : List Char :=
  ((cs.dropWhile isBlankChar).reverse.dropWhile isBlankChar).reverse

end Reactor.Text
