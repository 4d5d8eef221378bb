/-
  JSON values.

  Numbers keep what their text is: an integer of `-2 ^ 63` to `2 ^ 64 - 1`, or a
  double.  An object is a list of fields.  Those of a value that was read, or made
  by `mkObj`, are sorted by name and without duplicates; `Fields.insert` keeps
  both, and a later value of a field replaces an earlier one.  A record has its
  fields in an order of its own.
-/

namespace Reactor

/-- A JSON value. -/
inductive Json where
  | null
  | bool (b : Bool)
  | int (i : Int)
  | float (x : Float)
  | str (s : String)
  | arr (items : List Json)
  | obj (fields : List (String × Json))
deriving Inhabited

/-- Named values, sorted by name. -/
abbrev Fields (α : Type) := List (String × α)

namespace Fields

variable {α : Type}

/-- Puts a value under a name, in place of the one there. -/
def insert (k : String) (v : α) : Fields α → Fields α
  | [] => [(k, v)]
  | (k', v') :: r =>
    if k < k' then (k, v) :: (k', v') :: r
    else if k = k' then (k, v) :: r
    else (k', v') :: insert k v r

/-- The value under a name. -/
def get? (k : String) : Fields α → Option α
  | [] => none
  | (k', v) :: r => if k = k' then some v else get? k r

/-- Takes the value under a name away. -/
def erase (k : String) : Fields α → Fields α
  | [] => []
  | (k', v) :: r => if k = k' then r else (k', v) :: erase k r

/-- The last value of each name in a sorted list. -/
def lastOfEach : Fields α → Fields α
  | [] => []
  | (k, v) :: r =>
    match lastOfEach r with
    | [] => [(k, v)]
    | (k', v') :: r' => if k = k' then (k', v') :: r' else (k, v) :: (k', v') :: r'

/-- Sorted fields of a list of names and values, of which a later one wins. -/
def ofList (fs : List (String × α)) : Fields α :=
  if fs.length ≤ 8 then fs.foldl (fun out f => insert f.1 f.2 out) []
  else lastOfEach (fs.mergeSort fun a b => decide (¬ b.1 < a.1))

/-- Whether names are sorted and differ. -/
def Sorted (fs : Fields α) : Prop := fs.Pairwise fun a b => a.1 < b.1

end Fields

/-- A JSON object: what events carry and actions take and give. -/
abbrev Payload := Fields Json

namespace Json

/-- The object of fields in any order, of which a later one wins. -/
def mkObj (fs : List (String × Json)) : Json := .obj (Fields.ofList fs)

/-- A field of an object. -/
def get? (j : Json) (k : String) : Option Json :=
  match j with
  | .obj fs => Fields.get? k fs
  | _ => none

/-- An optional value, `null` if there is none. -/
def ofOption : Option Json → Json
  | some j => j
  | none => .null

/-- A list of texts. -/
def strs (l : List String) : Json := .arr (l.map .str)

/-- A natural number. -/
def nat (n : Nat) : Json := .int n

end Json

end Reactor
