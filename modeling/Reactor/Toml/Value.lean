/-
  Values of a configuration file.

  A table keeps its entries in the order in which they were written, and how it
  came to be, since that decides what may be added to it later.

  * `Value` is a value, `Entries` are the entries of a table;
  * `Entries.get?`, `Entries.set` and `Entries.erase` work on one of them;
  * `Moment` is a date, a time of day, or both.
-/

namespace Reactor.Toml

/-- A day of some year. -/
structure Date where
  year : Nat
  month : Nat
  day : Nat
deriving DecidableEq, Repr

/-- A time of day; the digits of a fraction of its second are kept as they are. -/
structure Clock where
  hour : Nat
  minute : Nat
  second : Nat
  fraction : List Char
deriving DecidableEq, Repr

/-- A date, a time of day, or both, perhaps with the minutes by which it is
    ahead of universal time. -/
structure Moment where
  date? : Option Date
  clock? : Option Clock
  offset? : Option Int
deriving DecidableEq, Repr

/-- How a table came to be. -/
inductive Origin where
  /-- by a header -/
  | header
  /-- on the way to the table of a header -/
  | path
  /-- on the way along a dotted key -/
  | dotted
  /-- in braces -/
  | braces
deriving DecidableEq, Repr

/-- A value. -/
inductive Value where
  | text (s : String)
  | int (i : Int)
  | float (x : Float)
  | bool (b : Bool)
  | moment (m : Moment)
  | array (items : List Value)
  | table (origin : Origin) (entries : List (String × Value))
  /-- the tables of a header in double brackets -/
  | tables (rows : List (List (String × Value)))

/-- The entries of a table, in the order in which they were written. -/
abbrev Entries := List (String × Value)

namespace Entries

/-- The value of a key. -/
def get? (k : String) : Entries → Option Value
  | [] => none
  | (k', v) :: r => if k = k' then some v else get? k r

/-- Gives a key a value, where it stands or else at the end. -/
def set (k : String) (v : Value) : Entries → Entries
  | [] => [(k, v)]
  | (k', v') :: r => if k = k' then (k, v) :: r else (k', v') :: set k v r

/-- Takes a key out. -/
def erase (k : String) : Entries → Entries
  | [] => []
  | (k', v) :: r => if k = k' then r else (k', v) :: erase k r

end Entries

end Reactor.Toml
