/-
  The functions on strings.

  `find`, `match`, `gmatch` and `gsub` work with patterns; the replacement of
  `gsub` is a text with references to captures, a table or a function.
-/
import Reactor.Lua.Library.Pattern
import Reactor.Lua.Library.Format
import Reactor.Lua.Library.Pack

namespace Reactor.Lua.Library

open Pattern

/-- A result of the matcher; its message is raised. -/
def matched {α : Type} (a : Arguments) (r : Except String α) : Task α :=
  match r with
  | .ok x => return x
  | .error m => a.fail m

/-- Whether a pattern stands at the start of the text only, with the place
    where it begins. -/
def anchor (pat : Bytes) : Bool × Nat :=
  if at_ pat 0 == '^' && pat.size > 0 then (true, 1) else (false, 0)

/-- Looks for a pattern; gives the place of a match in front of its captures if
    `find` is set. -/
def findOrMatch (a : Arguments) (find : Bool) : Task (Array Value) := do
  let s ← a.str 1
  let p ← a.str 2
  let init := firstPosition (← a.intOr 3 1) s.size - 1
  if init > s.size then return #[.nil]
  if find && ((a.get 4).isTruthy || isPlain p) then
    match findPlain s p (s.size + 1) init with
    | some i => return #[.int (.ofNat (i + 1)), .int (.ofNat (i + p.size))]
    | none => return #[.nil]
  else
    let j : Job := ⟨s, p⟩
    let (anchored, p0) := anchor p
    match ← matched a (search j p0 anchored (s.size - init + 1) init) with
    | none => return #[.nil]
    | some (i, e, caps) =>
      if find then
        let cs ← matched a (captureValues j caps i e false)
        return #[.int (.ofNat (i + 1)), .int (.ofNat e)] ++ cs
      else matched a (captureValues j caps i e true)

/-- An iterator over all matches of a pattern. -/
def gmatch (a : Arguments) : Task (Array Value) := do
  let s ← a.str 1
  let p ← a.str 2
  let init := firstPosition (← a.intOr 3 1) s.size - 1
  let c ← Task.alloc fun h => h.allocCursor ⟨s, p, min init (s.size + 1), none⟩
  return #[.native (.gmatchStep c)]

/-- The next match that does not end where the last one did. -/
def nextMatch (j : Job) (last : Option Nat) : Nat → Nat → Except String (Option (Nat × Nat × Captures))
  | 0, _ => .ok none
  | fuel + 1, s => do
    if s > j.subject.size then return none
    match ← matchAt j s 0 with
    | some (e, caps) =>
      if some e == last then nextMatch j last fuel (s + 1) else return some (s, e, caps)
    | none => nextMatch j last fuel (s + 1)

/-- The next match of an iterator. -/
def gmatchStep (a : Arguments) (c : Nat) : Task (Array Value) := do
  let cursor ← Task.read fun h => h.cursors.getD c default
  let j : Job := ⟨cursor.subject, cursor.pattern⟩
  match ← matched a (nextMatch j cursor.last? (cursor.subject.size + 1) cursor.position) with
  | none =>
    Task.change fun h =>
      { h with cursors := h.cursors.modify c fun k => { k with position := k.subject.size + 1 } }
    return #[.nil]
  | some (s, e, caps) =>
    Task.change fun h =>
      { h with cursors := h.cursors.modify c fun k => { k with position := e, last? := some e } }
    matched a (captureValues j caps s e true)

/-- A replacement text with its references to captures put in. -/
def expand (a : Arguments) (j : Job) (caps : Captures) (s e : Nat) :
    Nat → List Char → Bytes → Task Bytes
  | 0, _, out => return out
  | fuel + 1, cs, out => do
    match cs with
    | [] => return out
    | '%' :: d :: r =>
      if d == '%' then expand a j caps s e fuel r (out.push 37)
      else if d == '0' then expand a j caps s e fuel r (out ++ j.subject.extract s e)
      else if d.isDigit then
        match captureValue j caps s e (d.toNat - 49) with
        | .ok v => expand a j caps s e fuel r (out ++ v.toBytes?.getD .empty)
        | .error m => a.fail m
      else a.fail "invalid use of '%' in replacement string"
    | ['%'] => a.fail "invalid use of '%' in replacement string"
    | c :: r => expand a j caps s e fuel r (out.push (byteOf c))

/-- What replaces a match; `none` keeps the text. -/
def replacement (a : Arguments) (j : Job) (text : Option (List Char)) (caps : Captures)
    (s e : Nat) : Task (Option Bytes) := do
  match text with
  | some cs => return some (← expand a j caps s e (cs.length + 1) cs .empty)
  | none =>
    let v ← match a.get 3 with
      | .table r => do Operation.index (.table r) (← matched a (captureValue j caps s e 0)) none
      | f => do Task.call1 f (← matched a (captureValues j caps s e true)) none
    if !v.isTruthy then return none
    match v.toBytes? with
    | some t => return some t
    | none => a.fail ("invalid replacement value (a " ++ v.typeName ++ ")")

/-- Replaces matches from a place on. -/
def substitute (a : Arguments) (j : Job) (text : Option (List Char)) (anchored : Bool) (p0 : Nat) :
    Nat → Nat → Option Nat → Nat → Nat → Bytes → Task (Bytes × Nat)
  | 0, s, _, _, n, out => return (out ++ j.subject.extract s j.subject.size, n)
  | fuel + 1, s, last, limit, n, out => do
    let done := (out ++ j.subject.extract s j.subject.size, n)
    if limit = 0 then return done
    match ← matched a (matchAt j s p0) with
    | some (e, caps) =>
      if some e == last then
        if s < j.subject.size && !anchored then
          substitute a j text anchored p0 fuel (s + 1) last limit n (out.push (byteAt j.subject s))
        else return done
      else
        let out ← match ← replacement a j text caps s e with
          | some t => do
            Task.checkSize (out.size + t.size)
            Pure.pure (out ++ t)
          | none => Pure.pure (out ++ j.subject.extract s e)
        if anchored then return (out ++ j.subject.extract e j.subject.size, n + 1)
        substitute a j text anchored p0 fuel e (some e) (limit - 1) (n + 1) out
    | none =>
      if s < j.subject.size && !anchored then
        substitute a j text anchored p0 fuel (s + 1) last limit n (out.push (byteAt j.subject s))
      else return done

/-- Replaces matches of a pattern; with their number. -/
def gsub (a : Arguments) : Task (Array Value) := do
  let s ← a.str 1
  let p ← a.str 2
  let limit := (← a.intOr 4 (.ofNat (s.size + 1))).toInt.toNat
  let text ← match a.get 3 with
    | .table _ | .closure _ | .native _ => Pure.pure none
    | v =>
      match v.toBytes? with
      | some t => Pure.pure (some (toChars t))
      | none => a.badType 3 "string/function/table"
  let (anchored, p0) := anchor p
  let (out, n) ← substitute a ⟨s, p⟩ text anchored p0 (2 * s.size + 4) 0 none limit 0 .empty
  return #[← Task.newString out, .int (.ofNat n)]

/-- A text repeated, with a separator between. -/
def repeated (s sep : Bytes) : Nat → Bytes → Bytes
  | 0, out => out
  | 1, out => out ++ s
  | n + 1, out => repeated s sep n (out ++ s ++ sep)

/-- A string repeated, with a separator. -/
def rep (a : Arguments) : Task (Array Value) := do
  let s ← a.str 1
  let n := (← a.int 2).toInt
  let sep ← a.strOr 3 .empty
  if n ≤ 0 then return #[.str .empty]
  if (s.size + sep.size : Int) > 2147483647 / n then a.fail "resulting string too large"
  let n := n.toNat
  Task.checkSize (n * s.size + (n - 1) * sep.size)
  if s.size + sep.size = 0 then return #[.str .empty]
  return #[← Task.newString (repeated s sep n .empty)]

/-- Arithmetic on texts that stand for numbers. -/
def stringArith (a : Arguments) (name doing : String) (op : Value → Value → Task Value) :
    Task (Array Value) := do
  match (a.get 1).toNumber?, (a.get 2).toNumber? with
  | some x, some y => return #[← op x y]
  | _, _ =>
    let refuse : Task (Array Value) := do
      a.fail ("attempt to " ++ doing ++ " a '" ++ (a.get 1).typeName ++ "' with a '"
        ++ (a.get 2).typeName ++ "'")
    match a.get 2 with
    | .str _ => refuse
    | v =>
      match ← Task.read fun h => h.metafield v name with
      | .nil => refuse
      | tm => return #[← Task.call1 tm #[a.get 1, a.get 2] none]

/-- Arithmetic on numerals. -/
def stringOperator (a : Arguments) (op : Arith) : Task (Array Value) :=
  let name := Operation.arithName op
  stringArith a ("__" ++ name) name fun x y => Operation.arithmetic op x y none none

/-- The functions of the table `string` and the metamethods of strings. -/
def strings (f : Native) (a : Arguments) : Task (Array Value) := do
  match f with
  | .byte =>
    let s ← a.str 1
    let i ← a.intOr 2 1
    let first := firstPosition i s.size
    let last := lastPosition (← a.intOr 3 (.ofNat first)) s.size
    if first > last then return #[]
    if last - first ≥ 999000 then a.fail "stack overflow (string slice too long)"
    return ((s.extract (first - 1) last).toList.map fun b => Value.int (.ofNat b.toNat)).toArray
  | .char =>
    let bs ← (List.range a.values.size).mapM fun i => do
      let n ← a.int (i + 1)
      if n.toUInt64 > 255 then a.bad (i + 1) "value out of range"
      Pure.pure n.toUInt64.toUInt8
    return #[.str ⟨bs.toArray⟩]
  | .dump =>
    let _ ← a.function 1
    a.fail "unable to dump given function"
  | .find => findOrMatch a true
  | .format =>
    let cs := toChars (← a.str 1)
    return #[← Task.newString (← Format.run a (cs.length + 1) cs 1 .empty)]
  | .gmatch => gmatch a
  | .gmatchStep c => gmatchStep a c
  | .gsub => gsub a
  | .len => return #[.int (.ofNat (← a.str 1).size)]
  | .lower => return #[← Task.newString ⟨(← a.str 1).data.map lowerByte⟩]
  | .upper => return #[← Task.newString ⟨(← a.str 1).data.map upperByte⟩]
  | .match_ => findOrMatch a false
  | .pack =>
    let cs := toChars (← a.str 1)
    return #[← Task.newString (← Pack.pack a (cs.length + 1) Pack.start cs 1 .empty)]
  | .packsize =>
    let cs := toChars (← a.str 1)
    return #[.int (.ofNat (← Pack.size a (cs.length + 1) Pack.start cs 0))]
  | .rep => rep a
  | .reverse => return #[← Task.newString ⟨(← a.str 1).data.reverse⟩]
  | .sub =>
    let s ← a.str 1
    let first := firstPosition (← a.int 2) s.size
    let last := lastPosition (← a.intOr 3 (-1)) s.size
    return #[← Task.newString (if first > last then .empty else s.extract (first - 1) last)]
  | .unpack =>
    let cs := toChars (← a.str 1)
    let data ← a.str 2
    let pos := firstPosition (← a.intOr 3 1) data.size - 1
    if pos > data.size then a.bad 3 "initial position out of string"
    Pack.unpack a data (cs.length + 1) Pack.start cs pos #[]
  | .strAdd => stringOperator a .add
  | .strSub => stringOperator a .sub
  | .strMul => stringOperator a .mul
  | .strMod => stringOperator a .mod
  | .strPow => stringOperator a .pow
  | .strDiv => stringOperator a .div
  | .strIdiv => stringOperator a .idiv
  | .strUnm => stringArith a "__unm" "unm" fun x _ => Operation.negate x none
  | _ => return #[]

end Reactor.Lua.Library
