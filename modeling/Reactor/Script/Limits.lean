/-
  Limits of an evaluation.

  * `Limits` are the instructions and the bytes that an evaluation may use;
  * `Limits.effective` are those that are kept to, `Limits.room` the bytes that
    they leave: no bytes at all stand for no limit.
-/
import Reactor.Word

namespace Reactor.Script

/-- What an evaluation may use: instructions before a fault is raised, and
    bytes of memory. -/
structure Limits where
  instructions : Nat
  memory : Nat
deriving DecidableEq, Repr, Inhabited

/-- The limits by default: a million instructions, 64 MiB. -/
def Limits.standard : Limits := ⟨1000000, 64 * 1024 * 1024⟩

/-- At least one instruction is allowed. -/
def Limits.effective (l : Limits) : Limits := { l with instructions := max 1 l.instructions }

/-- The bytes that may be used; a limit of zero, and one that memory cannot
    reach, is none. -/
def Limits.room (l : Limits) : Nat :=
  if l.memory = 0 then Word.count 63 else min l.memory (Word.count 63)

end Reactor.Script
