/-
  Reading texts in quotes.

  A text stands in double quotes with escapes, or in single quotes as it is;
  three quotes instead of one let it go over many lines.  Readers take a text
  from its front and give what they read with the rest; they refuse with
  `none`.

  * `escape` reads the character of an escape;
  * `short` reads a text of one line after its opening quote, `long` one of many
    lines after its opening quotes;
  * `line` reads a text of one line, `text` of any form.
-/
import Reactor.Text.Digits

namespace Reactor.Toml

/-- Whether a character may stand in a text: a tab, and all but the controls. -/
def isVisible (c : Char) : Bool := c == '\t' || (c.toNat ≥ 32 && c.toNat != 127)

/-- What follows the end of a line. -/
def newline? : List Char → Option (List Char)
  | '\n' :: r => some r
  | '\r' :: '\n' :: r => some r
  | _ => none

/-- A space or a tab. -/
def isBlank (c : Char) : Bool := c == ' ' || c == '\t'

/-- Passes over spaces and tabs. -/
def skipBlanks (cs : List Char) : List Char := cs.dropWhile isBlank

namespace Quote

/-! ## Escapes -/

/-- The number of some hexadecimal digits. -/
def hexNumber : Nat → Nat → List Char → Option (Nat × List Char)
  | 0, n, cs => some (n, cs)
  | _ + 1, _, [] => none
  | k + 1, n, c :: r =>
    match Text.hexValue? c with
    | some d => hexNumber k (n * 16 + d) r
    | none => none

/-- The character with a number of so many hexadecimal digits. -/
def numbered (digits : Nat) (cs : List Char) : Option (Char × List Char) :=
  match hexNumber digits 0 cs with
  | some (n, r) => if n.isValidChar then some (Char.ofNat n, r) else none
  | none => none

/-- The character of an escape, after its backslash. -/
def escape : List Char → Option (Char × List Char)
  | 'b' :: r => some ('\x08', r)
  | 't' :: r => some ('\t', r)
  | 'n' :: r => some ('\n', r)
  | 'f' :: r => some ('\x0c', r)
  | 'r' :: r => some ('\r', r)
  | '"' :: r => some ('"', r)
  | '\\' :: r => some ('\\', r)
  | 'u' :: r => numbered 4 r
  | 'U' :: r => numbered 8 r
  | _ => none

/-! ## Texts of one line -/

/-- The rest of a text of one line; `acc` is what was read, reversed.  Only
    double quotes know escapes. -/
def short (quote : Char) : Nat → List Char → List Char → Option (String × List Char)
  | 0, _, _ => none
  | _ + 1, _, [] => none
  | fuel + 1, acc, c :: r =>
    if c = quote then some (String.ofList acc.reverse, r)
    else if c = '\\' ∧ quote = '"' then
      match escape r with
      | some (d, r) => short quote fuel (d :: acc) r
      | none => none
    else if isVisible c then short quote fuel (c :: acc) r
    else none

/-! ## Texts of many lines -/

/-- Passes over blanks and ends of lines. -/
def skipLines : Nat → List Char → List Char
  | 0, cs => cs
  | fuel + 1, cs =>
    match newline? (skipBlanks cs) with
    | some r => skipLines fuel r
    | none => skipBlanks cs

/-- What follows a backslash at the end of a line: the next character that is
    not blank. -/
def joined? (cs : List Char) : Option (List Char) :=
  (newline? (skipBlanks cs)).map fun r => skipLines (r.length + 1) r

/-- The rest of a text of many lines; `acc` is what was read, reversed.  A run of
    three to five quotes closes it with its last three, the others belong to the
    text, as do one or two quotes on their own. -/
def long (quote : Char) : Nat → List Char → List Char → Option (String × List Char)
  | 0, _, _ => none
  | _ + 1, _, [] => none
  | fuel + 1, acc, c :: r =>
    if c = quote then
      let n := (r.takeWhile (· = quote)).length + 1
      if n < 3 then long quote fuel (c :: acc) r
      else if n ≤ 5 then
        some (String.ofList (acc.reverse ++ List.replicate (n - 3) quote), r.drop (n - 1))
      else none
    else if c = '\\' ∧ quote = '"' then
      match joined? r, escape r with
      | some r, _ => long quote fuel acc r
      | none, some (d, r) => long quote fuel (d :: acc) r
      | none, none => none
    else match newline? (c :: r) with
      | some r => long quote fuel ('\n' :: acc) r
      | none => if isVisible c then long quote fuel (c :: acc) r else none

/-- The rest of a text of many lines, of which an end of a line that stands
    first is left out. -/
def lines (quote : Char) (cs : List Char) : Option (String × List Char) :=
  long quote (cs.length + 1) [] ((newline? cs).getD cs)

/-! ## Any form -/

/-- A text of one line. -/
def line : List Char → Option (String × List Char)
  | '"' :: r => short '"' (r.length + 1) [] r
  | '\'' :: r => short '\'' (r.length + 1) [] r
  | _ => none

/-- A text of any form. -/
def text : List Char → Option (String × List Char)
  | '"' :: '"' :: '"' :: r => lines '"' r
  | '\'' :: '\'' :: '\'' :: r => lines '\'' r
  | cs => line cs

end Quote

end Reactor.Toml
