/-
  Arguments of library functions.

  A library function gets its arguments with what is known of its call: the
  name that the call gives it, and the place of each function above it.  The
  readers below take one argument as a type or fail with
  `bad argument #n to 'name' (…)`.
-/
import Reactor.Lua.Operation

namespace Reactor.Lua

/-- What a library function knows of its call. -/
structure CallInfo where
  /-- what the calling instruction calls the function -/
  hint : Option Hint
  /-- the place `chunk:line: ` of the function at a level above, empty for one
      of the library -/
  place : Nat → Bytes
  /-- how deep calls of the host are nested -/
  depth : Nat

/-- The arguments of a call, with what is known of it. -/
structure Arguments where
  info : CallInfo
  self : Native
  values : Array Value

namespace Arguments

variable (a : Arguments)

/-- The argument at a position counted from one; `nil` if there is none. -/
def get (i : Nat) : Value := a.values.getD (i - 1) .nil

/-- Whether there is an argument at a position. -/
def has (i : Nat) : Bool := decide (i ≤ a.values.size)

/-- Whether an argument is missing or `nil`. -/
def isNone (i : Nat) : Bool := (a.get i).isNil

/-! ## Failing -/

/-- Fails with a message, after the place of a function above. -/
def failAt {α : Type} (level : Nat) (message : Bytes) : Task α :=
  Task.raise (.value (.str (a.info.place level ++ message)))

/-- Fails with a message, after the place of the caller. -/
def fail {α : Type} (message : String) : Task α := a.failAt 1 message.toUTF8

/-- The name of the function in messages. -/
def name : Bytes :=
  match a.info.hint with
  | some h => h.name
  | none => (a.self.qualifiedName.getD "?").toUTF8

/-- Fails because of an argument. -/
def badBytes {α : Type} (i : Nat) (what : Bytes) : Task α :=
  let isMethod := match a.info.hint with
    | some h => h.kind == "method"
    | none => false
  let tail := "' (".toUTF8 ++ what ++ ")".toUTF8
  if isMethod && i = 1 then
    a.failAt 1 ("calling '".toUTF8 ++ a.name ++ "' on bad self (".toUTF8 ++ what ++ ")".toUTF8)
  else
    let i := if isMethod then i - 1 else i
    a.failAt 1 (("bad argument #" ++ toString i ++ " to '").toUTF8 ++ a.name ++ tail)

/-- Refuses an argument. -/
def bad {α : Type} (i : Nat) (what : String) : Task α := a.badBytes i what.toUTF8

/-- What a message says an argument is. -/
def got (i : Nat) : Task Bytes := do
  if !a.has i then return "no value".toUTF8
  match a.get i with
  | .null => return "light userdata".toUTF8
  | v => Task.read fun h => h.typeName v

/-- Fails because an argument is not of a type. -/
def badType {α : Type} (i : Nat) (expected : String) : Task α := do
  let got ← a.got i
  a.badBytes i ((expected ++ " expected, got ").toUTF8 ++ got)

/-! ## Reading -/

/-- There must be an argument. -/
def any (i : Nat) : Task Value := do
  if a.has i then return a.get i else a.bad i "value expected"

/-- An argument that is a table. -/
def table (i : Nat) : Task Nat := do
  match a.get i with
  | .table r => return r
  | _ => a.badType i "table"

/-- An argument that is a function. -/
def function (i : Nat) : Task Value := do
  if Operation.isFunction (a.get i) then return a.get i else a.badType i "function"

/-- An integer, or what stands for one. -/
def int (i : Nat) : Task Int64 := do
  let v := a.get i
  match v.toInt? with
  | some n => return n
  | none =>
    if v.toNumber?.isSome then a.bad i "number has no integer representation"
    else a.badType i "number"

/-- An argument that is an integer, or a value for want of it. -/
def intOr (i : Nat) (d : Int64) : Task Int64 := if a.isNone i then return d else a.int i

/-- A number, or what stands for one, as a float. -/
def num (i : Nat) : Task Float := do
  match (a.get i).toFloat? with
  | some x => return x
  | none => a.badType i "number"

/-- A text, or a number as its text. -/
def str (i : Nat) : Task Bytes := do
  match (a.get i).toBytes? with
  | some s => return s
  | none => a.badType i "string"

/-- An argument that is a string, or a value for want of it. -/
def strOr (i : Nat) (d : Bytes) : Task Bytes := if a.isNone i then return d else a.str i

/-- The text of a value; its metamethod must give one. -/
def display (v : Value) : Task Bytes := do
  match ← Operation.display (a.fail "'__tostring' must return a string") v with
  | .str s => return s
  | _ => return .empty

/-- The length of a value as an integer. -/
def length (v : Value) : Task Int64 := do
  match (← Operation.length v none).toInt? with
  | some n => return n
  | none => a.fail "object length is not an integer"

/-- Something to read or write by numbers: a table, or a value with the
    metamethods that are asked for. -/
def tableLike (i : Nat) (fields : List String) : Task Value := do
  match a.get i with
  | .table r => return .table r
  | v =>
    let ok ← Task.read fun h =>
      (h.metatable? v).isSome && fields.all fun f => !(h.metafield v f).isNil
    if ok then return v else a.badType i "table"

end Arguments

/-- Positions in a text: from one, or from the end if negative.  The first is
    at least one. -/
def firstPosition (i : Int64) (size : Nat) : Nat :=
  let i := i.toInt
  if i > 0 then i.toNat
  else if i = 0 then 1
  else if i < -(size : Int) then 1
  else ((size : Int) + i + 1).toNat

/-- The last position is at most the size, and may be zero. -/
def lastPosition (i : Int64) (size : Nat) : Nat :=
  let i := i.toInt
  if i > size then size
  else if i ≥ 0 then i.toNat
  else if i < -(size : Int) then 0
  else ((size : Int) + i + 1).toNat

end Reactor.Lua
