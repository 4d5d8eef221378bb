/-
  Writing a configuration file.

  A text is written in the first of four forms that it fits: in double quotes
  as it is, in single quotes, in three double quotes, in three single quotes.  A
  text that fits none has escapes, in three double quotes if it has many lines.
  A list of more than one text has a line for each.

  * `Style` is the form of a text, `styleOf` the one it is written in;
  * `quote` writes a text, `texts` a list of texts;
  * `Item` is what an entry holds; `section_` writes a table with its header,
    `file` a file of tables.
-/
import Reactor.Text.Digits
import Reactor.Toml.Value

namespace Reactor.Toml.Writer

/-! ## Texts -/

/-- The length of the longest run of a character. -/
def longestRun (c : Char) (cs : List Char) : Nat :=
  let step := fun (best, run) d => if d = c then (max best (run + 1), run + 1) else (best, 0)
  (cs.foldl step (0, 0)).1

/-- Whether a character needs an escape: a control, but no tab or end of a line. -/
def isHidden (c : Char) : Bool := (c.toNat < 32 && c != '\t' && c != '\n') || c.toNat == 127

/-- How a text is written. -/
inductive Style where
  /-- in double quotes -/
  | basic
  /-- in single quotes -/
  | literal
  /-- in three double quotes -/
  | basicLines
  /-- in three single quotes -/
  | literalLines
deriving DecidableEq, Repr

/-- The form that a text is written in. -/
def styleOf (cs : List Char) : Style :=
  let hidden := cs.any isHidden
  let plain := !hidden && !cs.contains '\\'
  let oneLine := !cs.contains '\n'
  let singles := longestRun '\'' cs
  let doubles := longestRun '"' cs
  if plain && oneLine && doubles = 0 then .basic
  else if !hidden && oneLine && singles = 0 then .literal
  else if plain && doubles ≤ 2 then .basicLines
  else if !hidden && singles ≤ 2 then .literalLines
  else if oneLine then .basic
  else .basicLines

/-- The upper-case digit of a number below sixteen. -/
def upperDigit (n : Nat) : Char := (Text.hexDigit n).toUpper

/-- A character between double quotes, which are written elsewhere. -/
def escaped (oneLine : Bool) (c : Char) : List Char :=
  if c = '\x08' then ['\\', 'b']
  else if c = '\t' then ['\\', 't']
  else if c = '\n' then (if oneLine then ['\\', 'n'] else ['\n'])
  else if c = '\x0c' then ['\\', 'f']
  else if c = '\r' then ['\\', 'r']
  else if c = '\\' then ['\\', '\\']
  else if isHidden c then ['\\', 'u', '0', '0', upperDigit (c.toNat / 16), upperDigit (c.toNat % 16)]
  else [c]

/-- A text between double quotes.  Of a run of quotes every first or, in a text
    of many lines, every third has a backslash; `run` of them stand before. -/
def escape (oneLine : Bool) : Nat → List Char → List Char
  | _, [] => []
  | run, c :: r =>
    if c = '"' then
      if run < (if oneLine then 0 else 2) then '"' :: escape oneLine (run + 1) r
      else '\\' :: '"' :: escape oneLine 0 r
    else escaped oneLine c ++ escape oneLine 0 r

/-- What stands before a text of many lines, if it does have more than one. -/
def firstNewline (cs : List Char) : List Char := if cs.contains '\n' then ['\n'] else []

/-- A text in quotes. -/
def quote (s : String) : List Char :=
  let cs := s.toList
  match styleOf cs with
  | .basic => '"' :: escape true 0 cs ++ ['"']
  | .literal => '\'' :: cs ++ ['\'']
  | .basicLines => ['"', '"', '"'] ++ firstNewline cs ++ escape false 0 cs ++ ['"', '"', '"']
  | .literalLines => ['\'', '\'', '\''] ++ firstNewline cs ++ cs ++ ['\'', '\'', '\'']

/-- A list of texts; more than one have a line each. -/
def texts : List String → List Char
  | [] => ['[', ']']
  | [s] => '[' :: quote s ++ [']']
  | ss => '[' :: '\n' :: ss.flatMap (fun s => [' ', ' ', ' ', ' '] ++ quote s ++ [',', '\n']) ++ [']']

/-! ## Files -/

/-- What an entry holds. -/
inductive Item where
  | text (s : String)
  | nat (n : Nat)
  | bool (b : Bool)
  | texts (ss : List String)
deriving DecidableEq, Repr

/-- The value that is written. -/
def Item.toValue : Item → Value
  | .text s => .text s
  | .nat n => .int n
  | .bool b => .bool b
  | .texts ss => .array (ss.map .text)

/-- The text of what an entry holds. -/
def Item.write : Item → List Char
  | .text s => quote s
  | .nat n => Nat.toDigits 10 n
  | .bool true => ['t', 'r', 'u', 'e']
  | .bool false => ['f', 'a', 'l', 's', 'e']
  | .texts ss => Writer.texts ss

/-- A line for an entry, or more for a value of many lines. -/
def entry (e : String × Item) : List Char := e.1.toList ++ [' ', '=', ' '] ++ e.2.write ++ ['\n']

/-- A table: its name, which needs no quotes, and its entries. -/
structure Section_ where
  name : String
  entries : List (String × Item)
deriving DecidableEq, Repr

/-- The lines of a table. -/
def Section_.write (s : Section_) : List Char :=
  '[' :: s.name.toList ++ [']', '\n'] ++ s.entries.flatMap entry

/-- A file of tables, with an empty line between any two. -/
def file (ss : List Section_) : String :=
  String.ofList (List.intercalate ['\n'] (ss.map Section_.write))

end Reactor.Toml.Writer
