/-
  Configuration values of a given form.

  A decoder takes a value and says what is wrong with one of another form.  A
  record is a table with known keys, or a list of their values in order; what
  is not given keeps its default, and unknown keys are passed over.

  * `text`, `boolean`, `natural` and `choice` take plain values, `list` any
    number of values of one form;
  * `record` takes the fields of a record.
-/
import Reactor.Decimal.Digits
import Reactor.Text.Quoted
import Reactor.Toml.Value

namespace Reactor.Toml

/-- What a value of some form stands for; or what is wrong with one of another
    form. -/
abbrev Decoder (α : Type) := Value → Except String α

namespace Decoder

/-! ## Faults -/

/-- A finite number, written out, with a point. -/
def positional (digits : Nat) (e : Int) : List Char :=
  let ds := Decimal.trimZeros digits
  if e < 0 then '0' :: '.' :: (List.replicate (-e - 1).toNat '0' ++ ds)
  else
    let n := e.toNat + 1
    let fraction := ds.drop n
    ds.take n ++ List.replicate (n - ds.length) '0'
      ++ '.' :: (if fraction.isEmpty then ['0'] else fraction)

/-- How a message shows a float. -/
def floatText (x : Float) : String :=
  match Decimal.parts x with
  | .nan => "NaN"
  | .infinite negative => if negative then "-inf" else "inf"
  | .finite b =>
    let (digits, e) := Decimal.shortest b
    String.ofList ((if b.negative then ['-'] else []) ++ positional digits e)

/-- What a message calls a value. -/
def describe : Value → String
  | .text s => "string " ++ Text.quoted s
  | .int i => "integer `" ++ toString i ++ "`"
  | .float x => "floating point `" ++ floatText x ++ "`"
  | .bool b => "boolean `" ++ (if b then "true" else "false") ++ "`"
  | .array _ | .tables _ => "sequence"
  | .table _ _ | .moment _ => "map"

/-- Refuses a value of another form. -/
def refuse {α : Type} (expected : String) (v : Value) : Except String α :=
  .error ("invalid type: " ++ describe v ++ ", expected " ++ expected)

/-! ## Plain values -/

/-- A text. -/
def text : Decoder String
  | .text s => .ok s
  | v => refuse "a string" v

/-- A truth value. -/
def boolean : Decoder Bool
  | .bool b => .ok b
  | v => refuse "a boolean" v

/-- A natural number below a bound; messages call such numbers by a title. -/
def natural (title : String) (bound : Nat) : Decoder Nat
  | .int i =>
    if 0 ≤ i ∧ i < bound then .ok i.toNat
    else .error ("invalid value: integer `" ++ toString i ++ "`, expected " ++ title)
  | v => refuse title v

/-- The one of two values that a word stands for. -/
def ofWord {α : Type} (word : α → String) (a b : α) (s : String) : Except String α :=
  if s = word a then .ok a
  else if s = word b then .ok b
  else .error ("unknown variant `" ++ s ++ "`, expected `" ++ word a ++ "` or `" ++ word b ++ "`")

/-- Refuses all but an empty table, or an empty list in its place. -/
def nothing : Value → Except String Unit
  | .table _ [] | .array [] | .tables [] => .ok ()
  | .table _ _ | .array _ => .error "expected empty table"
  | .tables _ => .error "expected empty array"
  | .text _ => .error "expected table, found string"
  | .int _ => .error "expected table, found integer"
  | .float _ => .error "expected table, found float"
  | .bool _ => .error "expected table, found boolean"
  | .moment _ => .error "expected table, found datetime"

/-- One of two values by its word, which stands on its own or is the one key of
    a table, with nothing as its value. -/
def choice {α : Type} (word : α → String) (a b : α) : Decoder α
  | .text s => ofWord word a b s
  | .table _ [] => .error "wanted exactly 1 element, found 0 elements"
  | .table _ [(k, v)] => do
    let x ← ofWord word a b k
    nothing v
    return x
  | .table _ _ => .error "wanted exactly 1 element, more than 1 element"
  | _ => .error "wanted string or table"

/-! ## Lists and records -/

/-- A list of values of one form. -/
def list {α : Type} (item : Decoder α) : Decoder (List α)
  | .array vs => vs.mapM item
  | .tables rows => rows.mapM fun es => item (.table .header es)
  | v => refuse "a sequence" v

/-- A field of a record: its key, and how its value is taken in. -/
structure Field (σ : Type) where
  key : String
  take : Value → σ → Except String σ

/-- A field whose value has a form. -/
def field {σ α : Type} (key : String) (d : Decoder α) (put : α → σ → σ) : Field σ :=
  ⟨key, fun v s => do return put (← d v) s⟩

/-- Takes in an entry of a table, if its key is known. -/
def takeEntry {σ : Type} (fields : List (Field σ)) (s : σ) (entry : String × Value) :
    Except String σ :=
  match fields.find? (·.key = entry.1) with
  | some f => f.take entry.2 s
  | none => .ok s

/-- Takes in the values of fields in order. -/
def takeInOrder {σ : Type} (fields : List (Field σ)) (vs : List Value) (s : σ) : Except String σ :=
  (fields.zip vs).foldlM (fun s (f, v) => f.take v s) s

/-- A record of given fields, which messages call by its title. -/
def record {σ : Type} (title : String) (fields : List (Field σ)) (default_ : σ) : Decoder σ
  | .table _ es => es.foldlM (takeEntry fields) default_
  | .array vs => takeInOrder fields vs default_
  | .tables rows => takeInOrder fields (rows.map (.table .header)) default_
  | .moment _ => .ok default_
  | v => refuse ("struct " ++ title) v

end Decoder

end Reactor.Toml
