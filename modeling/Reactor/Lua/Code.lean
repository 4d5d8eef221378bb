/-
  Compiled functions.

  The code of a function is an array of instructions over numbered registers.
  A variable that a function inside uses lives in a box, which the two share;
  the box of a variable has the number of its register.  An instruction keeps
  what a message would call its operands.
-/
import Reactor.Lua.Syntax

namespace Reactor.Lua

/-- What a message calls a value: `kind 'name'`. -/
structure Hint where
  kind : String
  name : Bytes
deriving DecidableEq, Inhabited

/-- Where an instruction reads a value. -/
inductive Operand where
  | reg (i : Nat)
  | box (i : Nat)
  /-- a variable of a function around this one -/
  | up (i : Nat)
  | const (v : Value)
deriving DecidableEq, Inhabited

/-- Instructions.  A `target` is the number of an instruction. -/
inductive Instr where
  | move (dst : Nat) (src : Operand)
  | newBox (i : Nat) (src : Operand)
  | setBox (i : Nat) (src : Operand)
  | setUp (i : Nat) (src : Operand)
  | index (dst : Nat) (object key : Operand) (hint : Option Hint)
  | setIndex (object key value : Operand) (hint : Option Hint)
  /-- the method goes to `dst`, the object after it -/
  | method (dst : Nat) (object : Operand) (name : Bytes) (hint : Option Hint)
  | arith (op : Arith) (dst : Nat) (a b : Operand) (hintA hintB : Option Hint)
  | unary (op : UnaryOp) (dst : Nat) (a : Operand) (hint : Option Hint)
  /-- joins the registers from `base` on -/
  | concat (dst base count : Nat) (hints : List (Option Hint))
  /-- goes to the target if the comparison gives `on` -/
  | compare (op : Comparison) (a b : Operand) (on : Bool) (target : Nat)
  | jump (target : Nat)
  /-- goes to the target if the value counts as `on` -/
  | test (a : Operand) (on : Bool) (target : Nat)
  | newTable (dst listSize entryCount : Nat)
  /-- stores `count` registers from `base` on, and the open values if `isOpen`,
      under the numbers from `first` on -/
  | setList (table base count first : Nat) (isOpen : Bool)
  /-- calls the function in `base` with the `count` registers after it, and the
      open values if `isOpen`; `results` values go to `base` and after, or
      become the open values -/
  | call (base count : Nat) (isOpen : Bool) (results : Option Nat) (hint : Option Hint)
  | tailCall (base count : Nat) (isOpen : Bool) (hint : Option Hint)
  | ret (base count : Nat) (isOpen : Bool)
  | vararg (base : Nat) (results : Option Nat)
  | closure (dst index : Nat)
  /-- starts a loop over numbers, or goes to the target if it has no round -/
  | forPrep (base target : Nat)
  | forLoop (base target : Nat)
  | genericCall (base count : Nat)
  /-- goes to the target if the iterator gave a value -/
  | genericLoop (base target : Nat)
  /-- the value of a register is closed when its scope is left -/
  | markClose (reg level : Nat) (name : String)
  | close (level : Nat)
  /-- closes what is at the level or above it, then goes to the target -/
  | leave (level target : Nat)
deriving DecidableEq, Inhabited

/-- Where a new closure finds a variable of a function around it: among the
    boxes of the function that makes it, or among that one's own such
    variables. -/
inductive UpSource where
  | box (i : Nat)
  | up (i : Nat)
deriving DecidableEq, Inhabited

/-- A compiled function. -/
inductive Proto where
  | mk (code : Array Instr) (lines : Array Nat) (protos : Array Proto) (params : Nat)
      (isVararg : Bool) (size : Nat) (ups : Array (UpSource × String)) (chunk : Bytes) (line : Nat)
deriving Inhabited

namespace Proto

/-- The instructions of a function. -/
def code : Proto → Array Instr
  | mk c _ _ _ _ _ _ _ _ => c

/-- The line of each instruction. -/
def lines : Proto → Array Nat
  | mk _ l _ _ _ _ _ _ _ => l

/-- The functions written inside a function. -/
def protos : Proto → Array Proto
  | mk _ _ p _ _ _ _ _ _ => p

/-- The number of named parameters. -/
def params : Proto → Nat
  | mk _ _ _ n _ _ _ _ _ => n

/-- Whether a function takes more than its named parameters. -/
def isVararg : Proto → Bool
  | mk _ _ _ _ v _ _ _ _ => v

/-- How many registers a call needs. -/
def size : Proto → Nat
  | mk _ _ _ _ _ s _ _ _ => s

/-- The variables of functions around it, with their names. -/
def ups : Proto → Array (UpSource × String)
  | mk _ _ _ _ _ _ u _ _ => u

/-- The name of its source, as messages show it. -/
def chunk : Proto → Bytes
  | mk _ _ _ _ _ _ _ c _ => c

/-- The line where it begins; zero for a main function. -/
def line : Proto → Nat
  | mk _ _ _ _ _ _ _ _ n => n

end Proto

end Reactor.Lua
