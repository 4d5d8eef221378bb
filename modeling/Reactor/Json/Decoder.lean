/-
  Reading JSON of a given form.

  A decoder reads a value from the front of a text and says what is wrong with
  one of another form, at the first place where it differs.  A record is an
  object with known fields, or a list of their values in order; its decoder
  gives the object of all its fields in their order, the missing ones filled in.

  * `text`, `object`, `natural`, `choice` read plain values;
  * `list` and `table` read any number of values of one form;
  * `record` reads the fields of a record: a field that is given twice, under
    any of its names, and one that is missing without a default are faults, and
    unknown fields are passed over;
  * `decode` reads a text that holds one value, `decodeBytes` its bytes.
-/
import Reactor.Json.Reader
import Reactor.Json.Printer
import Reactor.Text.Quoted
import Reactor.Text.Utf8

namespace Reactor.Json

/-- Reads a value that may nest so much deeper from the front of a text. -/
abbrev Decoder (α : Type) := Nat → List Char → Except ReadError (α × List Char)

namespace Decoder

open Reader

/-! ## Faults -/

/-- What a message says about a value of another form. -/
def mismatch (found expected : String) : ReadError :=
  .shape ("invalid type: " ++ found ++ ", expected " ++ expected)

/-- What a message calls a number. -/
def numberName : Json → String
  | .float x => "floating point `" ++ floatText x ++ "`"
  | .int i => "integer `" ++ toString i ++ "`"
  | _ => "number"

/-- Refuses the value at the front of a text, which has no blanks there. -/
def refuse {α : Type} (expected : String) (cs : List Char) : Except ReadError α := do
  match cs with
  | [] => .error .ended
  | 'n' :: r => let _ ← word ['u', 'l', 'l'] r; .error (mismatch "null" expected)
  | 't' :: r => let _ ← word ['r', 'u', 'e'] r; .error (mismatch "boolean `true`" expected)
  | 'f' :: r => let _ ← word ['a', 'l', 's', 'e'] r; .error (mismatch "boolean `false`" expected)
  | '"' :: r => let (s, _) ← string r; .error (mismatch ("string " ++ Text.quoted s) expected)
  | '[' :: _ => .error (mismatch "sequence" expected)
  | '\x7b' :: _ => .error (mismatch "map" expected)
  | c :: r =>
    if c == '-' || c.isDigit then
      let (n, _) ← number (c :: r)
      .error (mismatch (numberName n) expected)
    else .error .malformed

/-! ## Plain values -/

/-- A text. -/
def text : Decoder Json := fun _ cs =>
  match skipBlanks cs with
  | '"' :: r => do let (s, r) ← string r; .ok (.str s, r)
  | cs => refuse "a string" cs

/-- An object with any fields. -/
def object : Decoder Json := fun depth cs =>
  match skipBlanks cs with
  | '\x7b' :: r => value depth ('\x7b' :: r)
  | cs => refuse "a map" cs

/-- A natural number of 64 bits. -/
def natural : Decoder Json := fun _ cs =>
  match skipBlanks cs with
  | [] => .error .ended
  | c :: r =>
    if c == '-' || c.isDigit then do
      match ← number (c :: r) with
      | (.int i, r) =>
        if 0 ≤ i then .ok (.int i, r)
        else .error (.shape ("invalid value: integer `" ++ toString i ++ "`, expected u64"))
      | (n, _) => .error (mismatch (numberName n) "u64")
    else refuse "u64" (c :: r)

/-- The message for a word that is none of some options. -/
def unknownOption (options : List String) (s : String) : ReadError :=
  .shape ("unknown variant `" ++ s ++ "`, expected one of "
    ++ ", ".intercalate (options.map fun o => "`" ++ o ++ "`"))

/-- One of some words, on its own or as the one field of an object, with the
    value `null`. -/
def choice (options : List String) : Decoder Json := fun depth cs =>
  let known (s : String) : Except ReadError Json :=
    if options.contains s then .ok (.str s) else .error (unknownOption options s)
  match skipBlanks cs with
  | [] => .error .ended
  | '"' :: r => do
    let (s, r) ← string r
    .ok (← known s, r)
  | '\x7b' :: r => do
    if depth = 0 then .error .malformed
    match skipBlanks r with
    | '"' :: r =>
      let (s, r) ← string r
      let j ← known s
      match skipBlanks r with
      | ':' :: r =>
        match skipBlanks r with
        | 'n' :: r =>
          let r ← word ['u', 'l', 'l'] r
          match skipBlanks r with
          | '\x7d' :: r => .ok (j, r)
          | r => unexpected r
        | r => refuse "unit" r
      | r => unexpected r
    | r => refuse "variant identifier" r
  | _ => .error .malformed

/-! ## Lists and tables -/

/-- What follows an item of a list: its end, or the next item. -/
def nextItem (first : Bool) (cs : List Char) : Except ReadError (Option (List Char)) :=
  match skipBlanks cs with
  | ']' :: _ => .ok none
  | ',' :: r =>
    if first then .ok (some (',' :: r))
    else match skipBlanks r with
      | ']' :: _ => .error .malformed
      | [] => .error .ended
      | r => .ok (some r)
  | [] => .error .ended
  | r => if first then .ok (some r) else .error .malformed

/-- The end of a list. -/
def closeList (cs : List Char) : Except ReadError (List Char) :=
  match skipBlanks cs with
  | ']' :: r => .ok r
  | r => unexpected r

/-- The items of a list up to its end. -/
def items (item : List Char → Except ReadError (Json × List Char)) :
    Nat → Bool → List Json → List Char → Except ReadError (Json × List Char)
  | 0, _, _, _ => .error .ended
  | fuel + 1, first, acc, cs => do
    match ← nextItem first cs with
    | none => .ok (.arr acc.reverse, ← closeList cs)
    | some r =>
      let (j, r) ← item r
      items item fuel false (j :: acc) r

/-- A list of values of one form. -/
def list (item : Decoder Json) : Decoder Json := fun depth cs =>
  match skipBlanks cs, depth with
  | '[' :: _, 0 => .error .malformed
  | '[' :: r, depth + 1 => items (item depth) (r.length + 1) true [] r
  | cs, _ => refuse "a sequence" cs

/-- The name of the next field with what follows its colon; `none` at the end of
    the object. -/
def nextField (first : Bool) (cs : List Char) :
    Except ReadError (Option (String × List Char)) :=
  let name (cs : List Char) : Except ReadError (Option (String × List Char)) :=
    match cs with
    | '"' :: r => do return some (← string r)
    | r => unexpected r
  match skipBlanks cs with
  | '\x7d' :: _ => .ok none
  | ',' :: r => if first then .error .malformed else name (skipBlanks r)
  | r => if first then name r else unexpected r

/-- What follows the colon after a name. -/
def afterColon (cs : List Char) : Except ReadError (List Char) :=
  match skipBlanks cs with
  | ':' :: r => .ok r
  | r => unexpected r

/-- The end of an object. -/
def closeObject (cs : List Char) : Except ReadError (List Char) :=
  match skipBlanks cs with
  | '\x7d' :: r => .ok r
  | r => unexpected r

/-- The fields of a table up to its end. -/
def entries (item : List Char → Except ReadError (Json × List Char)) :
    Nat → Bool → Fields Json → List Char → Except ReadError (Json × List Char)
  | 0, _, _, _ => .error .ended
  | fuel + 1, first, acc, cs => do
    match ← nextField first cs with
    | none => .ok (.obj acc, ← closeObject cs)
    | some (k, r) =>
      let (j, r) ← item (← afterColon r)
      entries item fuel false (Fields.insert k j acc) r

/-- An object with any names and values of one form. -/
def table (item : Decoder Json) : Decoder Json := fun depth cs =>
  match skipBlanks cs, depth with
  | '\x7b' :: _, 0 => .error .malformed
  | '\x7b' :: r, depth + 1 => entries (item depth) (r.length + 1) true [] r
  | cs, _ => refuse "a map" cs

/-! ## Records -/

/-- A field of a record. -/
structure Field where
  name : String
  /-- other names that it may be given under -/
  aliases : List String
  /-- what it holds if it is missing -/
  default? : Option Json
  read : Decoder Json

/-- A field that must be given. -/
def required (name : String) (read : Decoder Json) : Field := ⟨name, [], none, read⟩

/-- A field that may be missing. -/
def optional (name : String) (default_ : Json) (read : Decoder Json) : Field :=
  ⟨name, [], some default_, read⟩

/-- Whether a field is known under a name. -/
def Field.isNamed (f : Field) (name : String) : Bool := f.name == name || f.aliases.contains name

/-- All fields with their values, the missing ones filled in. -/
def complete (found : Fields Json) : List Field → Except ReadError (List (String × Json))
  | [] => .ok []
  | f :: rest => do
    match Fields.get? f.name found, f.default? with
    | some j, _ => return (f.name, j) :: (← complete found rest)
    | none, some j => return (f.name, j) :: (← complete found rest)
    | none, none => .error (.shape ("missing field `" ++ f.name ++ "`"))

/-- The fields of a record up to the end of the object. -/
def recordFields (fields : List Field) (depth : Nat) :
    Nat → Bool → Fields Json → List Char → Except ReadError (Json × List Char)
  | 0, _, _, _ => .error .ended
  | fuel + 1, first, found, cs => do
    match ← nextField first cs with
    | none =>
      let all ← complete found fields
      .ok (.obj all, ← closeObject cs)
    | some (k, r) =>
      match fields.find? (·.isNamed k) with
      | some f =>
        if (Fields.get? f.name found).isSome then
          .error (.shape ("duplicate field `" ++ f.name ++ "`"))
        else
          let (j, r) ← f.read depth (← afterColon r)
          recordFields fields depth fuel false (Fields.insert f.name j found) r
      | none => recordFields fields depth fuel false found (← skip (← afterColon r))

/-- The values of a record's fields in a list, from number `n` on. -/
def recordItems (title : String) (depth : Nat) :
    List Field → Nat → List (String × Json) → List Char → Except ReadError (Json × List Char)
  | [], _, acc, cs => do .ok (.obj acc.reverse, ← closeList cs)
  | f :: rest, n, acc, cs => do
    match ← nextItem (n == 0) cs, f.default? with
    | none, some j => recordItems title depth rest (n + 1) ((f.name, j) :: acc) cs
    | none, none =>
      .error (.shape ("invalid length " ++ toString n ++ ", expected " ++ title ++ " with "
        ++ toString (n + 1 + rest.length) ++ " elements"))
    | some r, _ =>
      let (j, r) ← f.read depth r
      recordItems title depth rest (n + 1) ((f.name, j) :: acc) r

/-- A record of given fields, which messages call by its title. -/
def record (title : String) (fields : List Field) : Decoder Json := fun depth cs =>
  match skipBlanks cs, depth with
  | '\x7b' :: _, 0 | '[' :: _, 0 => .error .malformed
  | '\x7b' :: r, depth + 1 => recordFields fields depth (r.length + 1) true [] r
  | '[' :: r, depth + 1 => recordItems title depth fields 0 [] r
  | cs, _ => refuse title cs

end Decoder

/-- The value of a given form that a text holds. -/
def decode {α : Type} (d : Decoder α) (text : String) : Except ReadError α :=
  Reader.whole (d Reader.maxDepth) text

/-- The text that bytes begin with. -/
def validBeginning (bytes : ByteArray) : String :=
  match Text.Utf8.fault? bytes with
  | none => Text.Utf8.lossy bytes
  | some f => Text.Utf8.lossy (bytes.extract 0 f.validUpTo)

/-- The value of a given form that bytes hold.  Bytes that are no text are not
    JSON, unless what stands before them has another form. -/
def decodeBytes {α : Type} (d : Decoder α) (bytes : ByteArray) : Except ReadError α :=
  let read := decode d (validBeginning bytes)
  if (Text.Utf8.fault? bytes).isNone then read
  else match read with
    | .error (.shape m) => .error (.shape m)
    | _ => .error .malformed

/-- A text under a name of an object; empty if there is none. -/
def textAt (j : Json) (k : String) : String :=
  match j.get? k with
  | some (.str s) => s
  | _ => ""

/-- The fields under a name of an object. -/
def fieldsAt (j : Json) (k : String) : Fields Json :=
  match j.get? k with
  | some (.obj fs) => fs
  | _ => []

/-- The items under a name of an object. -/
def itemsAt (j : Json) (k : String) : List Json :=
  match j.get? k with
  | some (.arr js) => js
  | _ => []

/-- The natural number under a name of an object. -/
def natAt (j : Json) (k : String) : Nat :=
  match j.get? k with
  | some (.int i) => i.toNat
  | _ => 0

end Reactor.Json
