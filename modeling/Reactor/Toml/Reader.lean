/-
  Reading a configuration file.

  A file is a list of statements, each on a line of its own: a header of a
  table, or a key with its value.  Arrays may go over many lines, tables in
  braces may not.  Values nest less than 80 deep, and a dotted key has less than
  80 parts.

  * `key` reads a dotted key, `value` a value;
  * `Statement` is a statement, `statements` reads those of a text;
  * `read` is the table that a text describes.
-/
import Reactor.Toml.Numeral
import Reactor.Toml.Quote
import Reactor.Toml.Table

namespace Reactor.Toml

/-- How deep values may nest, and how many parts a dotted key may have. -/
def maxDepth : Nat := 79

/-! ## Keys -/

/-- Whether a key may have a character without quotes. -/
def isBare (c : Char) : Bool := c.isAlphanum || c == '-' || c == '_'

/-- One part of a key. -/
def simpleKey (cs : List Char) : Option (String × List Char) :=
  match cs with
  | '"' :: _ | '\'' :: _ => Quote.line cs
  | cs =>
    let k := cs.takeWhile isBare
    if k.isEmpty then none else some (String.ofList k, cs.dropWhile isBare)

/-- A dotted key of at most so many parts, with the blanks around it. -/
def keyOf : Nat → List Char → Option (List String × List Char)
  | 0, _ => none
  | parts + 1, cs => do
    let (k, r) ← simpleKey (skipBlanks cs)
    match skipBlanks r with
    | '.' :: r => let (ks, r) ← keyOf parts r; return (k :: ks, r)
    | r => return ([k], r)

/-- A dotted key, with the blanks around it. -/
def key (cs : List Char) : Option (List String × List Char) := keyOf maxDepth cs

/-! ## Values -/

/-- Passes over blanks, ends of lines and comments. -/
def skipSpace : Nat → List Char → List Char
  | 0, cs => cs
  | fuel + 1, cs =>
    match skipBlanks cs with
    | '#' :: r =>
      match newline? (r.dropWhile isVisible) with
      | some r => skipSpace fuel r
      | none => '#' :: r
    | r =>
      match newline? r with
      | some r => skipSpace fuel r
      | none => r

/-- A number or a time. -/
def numeral (cs : List Char) : Option (Value × List Char) :=
  match moment cs, float cs, integer cs with
  | some (m, r), _, _ => some (.moment m, r)
  | none, some (x, r), _ => some (.float x, r)
  | none, none, some (i, r) => some (.int i, r)
  | none, none, none => none

/-- A value that holds no others. -/
def atom (cs : List Char) : Option (Value × List Char) :=
  match cs with
  | '"' :: _ | '\'' :: _ => (Quote.text cs).map fun (s, r) => (.text s, r)
  | 't' :: 'r' :: 'u' :: 'e' :: r => some (.bool true, r)
  | 'f' :: 'a' :: 'l' :: 's' :: 'e' :: r => some (.bool false, r)
  | cs => numeral cs

/-- The rest of an array. -/
def items (value : List Char → Option (Value × List Char)) :
    Nat → List Value → List Char → Option (Value × List Char)
  | 0, _, _ => none
  | fuel + 1, acc, cs =>
    match skipSpace (cs.length + 1) cs with
    | ']' :: r => some (.array acc.reverse, r)
    | cs => do
      let (v, r) ← value cs
      match skipSpace (r.length + 1) r with
      | ',' :: r => items value fuel (v :: acc) r
      | ']' :: r => some (.array (v :: acc).reverse, r)
      | _ => none

/-- The rest of a table in braces that is not empty. -/
def pairs (value : List Char → Option (Value × List Char)) :
    Nat → Entries → List Char → Option (Value × List Char)
  | 0, _, _ => none
  | fuel + 1, acc, cs => do
    let (path, r) ← key cs
    let (v, r) ← value (skipBlanks (← mark '=' r))
    let acc ← acc.extend path v
    match skipBlanks r with
    | ',' :: r => pairs value fuel acc r
    | '\x7d' :: r => return (.table .braces acc, r)
    | _ => none

/-- A value that holds others only so deep. -/
def valueTo : Nat → List Char → Option (Value × List Char)
  | depth + 1, '[' :: r => items (valueTo depth) (r.length + 1) [] r
  | depth + 1, '\x7b' :: r =>
    match skipBlanks r with
    | '\x7d' :: r => some (.table .braces [], r)
    | r => pairs (valueTo depth) (r.length + 1) [] r
  | _, cs => atom cs

/-- A value. -/
def value (cs : List Char) : Option (Value × List Char) := valueTo maxDepth cs

/-! ## Statements -/

/-- A statement. -/
inductive Statement where
  /-- a header -/
  | table (path : List String)
  /-- a header in double brackets -/
  | row (path : List String)
  /-- a key with its value -/
  | entry (path : List String) (v : Value)

/-- What follows a line: blanks, perhaps a comment, and its end or that of the
    text. -/
def endLine (cs : List Char) : Option (List Char) :=
  let r := match skipBlanks cs with
    | '#' :: r => r.dropWhile isVisible
    | r => r
  match r with
  | [] => some []
  | r => newline? r

/-- A statement. -/
def statement (cs : List Char) : Option (Statement × List Char) :=
  match cs with
  | '[' :: '[' :: r => do
    let (path, r) ← key r
    return (.row path, ← mark ']' (← mark ']' r))
  | '[' :: r => do
    let (path, r) ← key r
    return (.table path, ← mark ']' r)
  | cs => do
    let (path, r) ← key cs
    let (v, r) ← value (skipBlanks (← mark '=' r))
    return (.entry path v, r)

/-- The statements of a text. -/
def statementsFrom : Nat → List Char → Option (List Statement)
  | 0, _ => none
  | fuel + 1, cs =>
    match skipBlanks cs with
    | [] => some []
    | cs =>
      match endLine cs with
      | some r => statementsFrom fuel r
      | none => do
        let (s, r) ← statement cs
        return s :: (← statementsFrom fuel (← endLine r))

/-- The statements of a text, which may begin with a mark of its byte order. -/
def statements (cs : List Char) : Option (List Statement) :=
  match cs with
  | '\ufeff' :: r => statementsFrom (r.length + 1) r
  | r => statementsFrom (r.length + 1) r

/-- A table that is being put together: what is there, and the path of the last
    header. -/
structure Draft where
  entries : Entries
  path : List String

/-- Takes in one statement. -/
def Draft.add (d : Draft) : Statement → Option Draft
  | .table path => do return ⟨← d.entries.openTable path, path⟩
  | .row path => do return ⟨← d.entries.openRow path, path⟩
  | .entry path v => do return { d with entries := ← d.entries.within d.path (·.extend path v) }

/-- The table that statements describe. -/
def assemble (ss : List Statement) : Option Entries :=
  (ss.foldlM Draft.add ⟨[], []⟩).map (·.entries)

/-- The table that a text describes. -/
def read (s : String) : Option Entries := (statements s.toList).bind assemble

end Reactor.Toml
