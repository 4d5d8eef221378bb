/-
  Putting a table together.

  A file says piece by piece what is in its tables.  A piece that would change
  what is said elsewhere is refused: a key has one value, a table has one
  header, and what stands in braces or under a header of its own is not added to
  by dotted keys.

  * `extend` gives a dotted key a value;
  * `openTable` begins the table of a header, `openRow` that of a header in
    double brackets;
  * `within` changes the table of a header that has begun.
-/
import Reactor.Toml.Value

namespace Reactor.Toml.Entries

/-- The last of some rows, changed. -/
def changeLast (f : Entries → Option Entries) : List Entries → Option (List Entries)
  | [] => none
  | [row] => do return [← f row]
  | row :: rest => do return row :: (← changeLast f rest)

/-- Changes the table at the end of a path by a function that is told how the
    table came to be.  Tables that are not there yet are made; one of another
    origin than may be passed, and what is no table, is refused.  Of the tables
    of a header in double brackets the path leads to the last. -/
def change (fresh : Origin) (passes : Origin → Bool) (f : Origin → Entries → Option Entries) :
    List String → Origin → Entries → Option Entries
  | [], origin, es => f origin es
  | k :: path, _, es =>
    match es.get? k with
    | none => do return es ++ [(k, .table fresh (← change fresh passes f path fresh []))]
    | some (.table o inner) =>
      if passes o then do return es.set k (.table o (← change fresh passes f path o inner))
      else none
    | some (.tables rows) => do
      return es.set k (.tables (← changeLast (change fresh passes f path .header) rows))
    | some _ => none

/-- Gives a dotted key a value. -/
def extend (path : List String) (v : Value) (es : Entries) : Option Entries :=
  match path.getLast? with
  | none => none
  | some k =>
    let put (o : Origin) (es : Entries) : Option Entries :=
      if (es.get? k).isNone ∧ (path.length = 1 ∨ o = .dotted) then some (es ++ [(k, v)]) else none
    change .dotted (fun o => o = .path ∨ o = .dotted) put path.dropLast .header es

/-- Whether a header may name a table inside one of an origin. -/
def isOpen (o : Origin) : Bool := o ≠ .braces

/-- Begins the table of a header. -/
def openTable (path : List String) (es : Entries) : Option Entries :=
  match path.getLast? with
  | none => none
  | some k =>
    let begin_ (_ : Origin) (es : Entries) : Option Entries :=
      match es.get? k with
      | none => some (es ++ [(k, .table .header [])])
      | some (.table .path inner) => some (es.erase k ++ [(k, .table .header inner)])
      | some _ => none
    change .path isOpen begin_ path.dropLast .header es

/-- Begins the next table of a header in double brackets. -/
def openRow (path : List String) (es : Entries) : Option Entries :=
  match path.getLast? with
  | none => none
  | some k =>
    let begin_ (_ : Origin) (es : Entries) : Option Entries :=
      match es.get? k with
      | none => some (es ++ [(k, .tables [[]])])
      | some (.tables rows) => some (es.set k (.tables (rows ++ [[]])))
      | some _ => none
    change .path isOpen begin_ path.dropLast .header es

/-- Changes the table of a header that has begun. -/
def within (path : List String) (f : Entries → Option Entries) (es : Entries) : Option Entries :=
  change .path isOpen (fun _ => f) path .header es

end Reactor.Toml.Entries
