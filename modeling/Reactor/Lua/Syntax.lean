/-
  Abstract syntax.

  Names are resolved: a variable is known by a number that no other variable of
  the program has, a global is a field of the variable `_ENV`, and a jump is
  known by a number for which the parser records its label.  Lines are those
  that messages about the node show.
-/
import Reactor.Lua.Token

namespace Reactor.Lua

/-- The arithmetic and bitwise operators of two operands. -/
inductive Arith where
  | add | sub | mul | mod | pow | div | idiv | band | bor | bxor | shl | shr
deriving DecidableEq, Repr

/-- The comparisons; the others are these with operands swapped or the result
    negated. -/
inductive Comparison where
  | eq | lt | le
deriving DecidableEq, Repr

/-- The operators of two operands. -/
inductive BinaryOp where
  | arith (op : Arith)
  | concat
  | compare (op : Comparison) (swapped negated : Bool)
  | and
  | or
deriving DecidableEq, Repr

/-- The operators of one operand. -/
inductive UnaryOp where
  | neg | not | len | bnot
deriving DecidableEq, Repr

/-- The number of a variable. -/
abbrev VarId := Nat

mutual

/-- Expressions. -/
inductive Expr where
  | nil
  | bool (b : Bool)
  | int (i : Int64)
  | num (x : Float)
  | str (s : Bytes)
  | vararg
  | function (body : Body)
  | var (id : VarId) (name : String)
  | index (object key : Expr) (line : Nat)
  | call (f : Expr) (args : List Expr) (line : Nat)
  /-- `object:name(args)` -/
  | method (object : Expr) (name : Bytes) (args : List Expr) (line nameLine : Nat)
  | binary (op : BinaryOp) (a b : Expr) (line : Nat)
  | unary (op : UnaryOp) (a : Expr) (line : Nat)
  | table (items : List Item) (line : Nat)
  | paren (e : Expr)

/-- What stands between the braces of a table. -/
inductive Item where
  | positional (e : Expr)
  | keyed (key value : Expr) (line : Nat)

/-- A function: its parameters, whether it takes more, and its statements. -/
inductive Body where
  | mk (params : List VarId) (isVararg : Bool) (stats : List Stat) (line endLine : Nat)

/-- Statements. -/
inductive Stat where
  | local_ (vars : List (VarId × String)) (toClose : Option Nat) (values : List Expr) (line : Nat)
  | assign (targets values : List Expr) (line : Nat)
  | call (e : Expr) (line : Nat)
  | block (body : List Stat)
  | while_ (cond : Expr) (body : List Stat) (onBreak : Nat) (line : Nat)
  | repeat_ (body : List Stat) (cond : Expr) (onBreak : Nat) (line : Nat)
  | if_ (clauses : List (Expr × List Stat)) (otherwise : List Stat) (line : Nat)
  | numericFor (var : VarId) (start limit : Expr) (step : Option Expr) (body : List Stat)
      (onBreak line doLine : Nat)
  | genericFor (vars : List VarId) (values : List Expr) (body : List Stat)
      (onBreak line doLine : Nat)
  | localFunction (var : VarId) (body : Body) (line : Nat)
  | return_ (values : List Expr) (line : Nat)
  | goto_ (jump : Nat) (line : Nat)
  | label (id : Nat)

end

/-- A parsed program: its main function, the variables that functions inside
    the one that declares them use, and the label of each jump. -/
structure Chunk where
  main : Body
  env : VarId
  captured : List VarId
  targets : List (Nat × Nat)

/-- An expression without parentheses around it. -/
def Expr.strip : Expr → Expr
  | .paren e => e.strip
  | e => e

end Reactor.Lua
