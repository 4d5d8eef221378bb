/-
  Computations that call back.

  A library function, or an operation with a metamethod, reads and writes the
  heap and may call a value of the script; what it does with the results is
  the rest of the computation.  So a computation is a function from the heap to
  an `Outcome`: it is done, it has failed, or it waits for a call.

  * `Task.call f args` calls a value, `Task.guard f args handler` calls it and
    gets its error as a value; a `Handler` is told of the error before that;
  * `Task.fail` raises a message to which the machine adds the place where the
    operation stands, if a script's code runs it.
-/
import Reactor.Lua.Heap

namespace Reactor.Lua

/-- What is raised. -/
inductive Fault where
  | value (v : Value)
  /-- a message that still lacks the place of the operation -/
  | bare (message : Bytes)
  | memory
deriving DecidableEq, Inhabited

/-- The text of a memory fault, for those that catch it. -/
def Fault.memoryText : String := "not enough memory"

/-- What a fault is to those that catch it. -/
def Fault.toValue : Fault → Value
  | value v => v
  | bare m => .str m
  | memory => .ofString memoryText

/-- Who is told of a fault where it is raised, before what is under way is left;
    its answer stands for the fault from then on. -/
inductive Handler where
  | nobody
  | value (v : Value)
  /-- whoever is told of faults around the call -/
  | outer
deriving DecidableEq, Inhabited

/-- How a step of a computation ends. -/
inductive Outcome (α : Type) where
  | done (a : α) (h : Heap)
  | failed (e : Fault) (h : Heap)
  /-- waits for the results of a call -/
  | calling (f : Value) (args : Array Value) (hint : Option Hint) (h : Heap)
      (resume : Array Value → Heap → Outcome α)
  /-- waits for the results or the fault of a call -/
  | guarding (f : Value) (args : Array Value) (handler : Handler) (h : Heap)
      (resume : Except Fault (Array Value) → Heap → Outcome α)

/-- A computation over the heap that may call values. -/
def Task (α : Type) : Type := Heap → Outcome α

namespace Outcome

/-- Goes on with the result, once there is one. -/
def bind {α β : Type} (f : α → Heap → Outcome β) : Outcome α → Outcome β
  | done a h => f a h
  | failed e h => failed e h
  | calling g args hint h resume => calling g args hint h fun vs h => (resume vs h).bind f
  | guarding g args handler h resume =>
    guarding g args handler h fun r h => (resume r h).bind f

end Outcome

namespace Task

/-- The task that only has a result. -/
def pure {α : Type} (a : α) : Task α := fun h => .done a h

/-- A task after another, on its result. -/
def bind {α β : Type} (t : Task α) (f : α → Task β) : Task β := fun h =>
  match t h with
  | .done a h => f a h
  | o => o.bind f

instance : Monad Task where
  pure := Task.pure
  bind := Task.bind

/-- Raises a fault. -/
def raise {α : Type} (e : Fault) : Task α := fun h => .failed e h

/-- Raises a message that lacks its place. -/
def fail {α : Type} (message : String) : Task α := raise (.bare message.toUTF8)

/-- Raises a message. -/
def failBytes {α : Type} (message : Bytes) : Task α := raise (.bare message)

/-- Calls a value; `hint` is what messages call it. -/
def call (f : Value) (args : Array Value) (hint : Option Hint) : Task (Array Value) :=
  fun h => .calling f args hint h fun vs h => .done vs h

/-- Calls a value and takes its first result. -/
def call1 (f : Value) (args : Array Value) (hint : Option Hint) : Task Value := do
  return (← call f args hint).getD 0 .nil

/-- Calls a value and takes its fault, if it has one, as a result. -/
def guard (f : Value) (args : Array Value) (handler : Handler) :
    Task (Except Fault (Array Value)) :=
  fun h => .guarding f args handler h fun r h => .done r h

/-- Something read off the heap. -/
def read {α : Type} (f : Heap → α) : Task α := fun h => .done (f h) h

/-- A change of the heap. -/
def change (f : Heap → Heap) : Task Unit := fun h => .done () (f h)

/-- A change of the heap with a result. -/
def alloc {α : Type} (f : Heap → α × Heap) : Task α := fun h =>
  let (a, h) := f h
  .done a h

/-- A new string of the script.  One above the limit is not made. -/
def newString (s : Bytes) : Task Value := fun h =>
  if s.size > h.limit then .failed .memory h else .done (.str s) (h.charge (s.size + 25))

/-- Fails if a text of that many bytes cannot be made. -/
def checkSize (n : Nat) : Task Unit := fun h =>
  if n > h.limit then .failed .memory h else .done () h

/-- A new table. -/
def newTable (t : Table) : Task Value := do
  return .table (← alloc fun h => h.allocTable t)

end Task

end Reactor.Lua
