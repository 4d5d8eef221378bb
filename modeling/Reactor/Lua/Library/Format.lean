/-
  Formatted text.

  An item of a format is `%`, flags, a width, a precision and a letter.
  `Spec.read` takes it apart, `Spec.check` refuses what the letter does not
  allow, and the writers fill to the width.
-/
import Reactor.Lua.Library.Arguments

namespace Reactor.Lua.Format

/-- One item of a format: its text, flags, width, precision and letter. -/
structure Spec where
  text : List Char
  flags : List Char
  width : Nat
  precision : Option Nat
  letter : Char
deriving Inhabited

/-- The characters that may stand between `%` and the letter. -/
def isModifier (c : Char) : Bool :=
  c == '-' || c == '+' || c == ' ' || c == '#' || c == '.' || c.isDigit

/-- The flags, the width and the precision of an item. -/
def Spec.ofText (modifiers : List Char) (letter : Char) : Spec :=
  let isFlag := fun c => c == '-' || c == '+' || c == ' ' || c == '#' || c == '0'
  let flags := modifiers.takeWhile isFlag
  let r := modifiers.dropWhile isFlag
  let width := Nat.ofDigitChars 10 (r.takeWhile Char.isDigit) 0
  let precision := match r.dropWhile Char.isDigit with
    | '.' :: ds => some (Nat.ofDigitChars 10 (ds.takeWhile Char.isDigit) 0)
    | _ => none
  ⟨'%' :: modifiers ++ [letter], flags, width, precision, letter⟩

/-- At most two digits off a text. -/
def dropTwoDigits (cs : List Char) : List Char :=
  match cs with
  | a :: b :: r => if a.isDigit then (if b.isDigit then r else b :: r) else cs
  | [a] => if a.isDigit then [] else cs
  | [] => []

/-- Whether a letter allows the modifiers before it: some flags, a width of at
    most two digits that starts with no zero, and perhaps a precision. -/
def Spec.isValid (s : Spec) (flags : List Char) (withPrecision : Bool) : Bool :=
  let r := (s.text.drop 1).dropWhile flags.contains
  let r := match r with
    | '0' :: _ => r
    | _ =>
      match dropTwoDigits r with
      | '.' :: r' => if withPrecision then dropTwoDigits r' else '.' :: r'
      | r' => r'
  match r with
  | c :: _ => isLetter c
  | [] => false

/-- Whether a directive has a flag. -/
def Spec.has (s : Spec) (c : Char) : Bool := s.flags.contains c

/-- Fills a text to the width, on the left unless the flag `-` is set. -/
def Spec.fill (s : Spec) (cs : List Char) : List Char :=
  let blanks := List.replicate (s.width - cs.length) ' '
  if s.has '-' then cs ++ blanks else blanks ++ cs

/-- Fills a number to the width: with the flag `0` between its sign and its
    digits. -/
def Spec.fillNumber (s : Spec) (zeros : Bool) (sign digits : List Char) : List Char :=
  if zeros && s.has '0' && !s.has '-' then
    sign ++ List.replicate (s.width - sign.length - digits.length) '0' ++ digits
  else s.fill (sign ++ digits)

/-- The sign of a number. -/
def Spec.sign (s : Spec) (negative : Bool) : List Char :=
  if negative then ['-'] else if s.has '+' then ['+'] else if s.has ' ' then [' '] else []

/-- Digits with at least as many places as the precision; none for a zero of
    precision zero. -/
def Spec.digits (s : Spec) (n : Nat) (ds : List Char) : List Char :=
  match s.precision with
  | some 0 => if n = 0 then [] else ds
  | some p => List.replicate (p - ds.length) '0' ++ ds
  | none => ds

/-- A signed integer. -/
def Spec.signed (s : Spec) (i : Int64) : List Char :=
  let n := i.toInt.natAbs
  s.fillNumber s.precision.isNone (s.sign (i < 0)) (s.digits n (Nat.toDigits 10 n))

/-- An integer as a natural number in another base. -/
def Spec.unsigned (s : Spec) (i : Int64) : List Char :=
  let n := i.toUInt64.toNat
  match s.letter with
  | 'o' =>
    let ds := s.digits n (Nat.toDigits 8 n)
    let ds := if s.has '#' && ds.headD ' ' != '0' then '0' :: ds else ds
    s.fillNumber s.precision.isNone [] ds
  | 'u' => s.fillNumber s.precision.isNone [] (s.digits n (Nat.toDigits 10 n))
  | _ =>
    let ds := s.digits n (Nat.toDigits 16 n)
    let mark := if s.has '#' && n ≠ 0 then ['0', 'x'] else []
    let (mark, ds) := if s.letter == 'X' then (mark.map Char.toUpper, ds.map Char.toUpper)
      else (mark, ds)
    s.fillNumber s.precision.isNone mark ds

/-- A float in the form of the letter. -/
def Spec.float (s : Spec) (x : Float) : List Char :=
  let lower := s.letter.toLower
  let body : Bool × Bool × List Char :=
    match Decimal.parts x with
    | .nan => (true, false, ['n', 'a', 'n'])
    | .infinite negative => (negative, false, ['i', 'n', 'f'])
    | .finite b =>
      let alt := s.has '#'
      let p := s.precision.getD 6
      let ds := match lower with
        | 'e' => Decimal.scientific b p alt 'e'
        | 'f' => Decimal.fixed b p alt
        | 'a' => Decimal.hexadecimal b s.precision alt
        | _ => Decimal.general b p alt 'e'
      (b.negative, true, ds)
  let (negative, finite, ds) := body
  let sign := s.sign negative
  let (mark, ds) := match lower, ds with
    | 'a', '0' :: 'x' :: r => (['0', 'x'], r)
    | _, _ => ([], ds)
  let out := s.fillNumber finite (sign ++ mark) ds
  if s.letter.isUpper then out.map Char.toUpper else out

/-- A string as its literal. -/
def quoted (s : Bytes) : Bytes :=
  let cs := toChars s
  let rec go : List Char → List Char
    | [] => []
    | c :: r =>
      if c == '"' || c == '\\' || c == '\n' then '\\' :: c :: go r
      else if isControl c then
        let ds := match r with
          | d :: _ => if d.isDigit then Decimal.padded 3 c.toNat else Nat.toDigits 10 c.toNat
          | [] => Nat.toDigits 10 c.toNat
        '\\' :: ds ++ go r
      else c :: go r
  ofChars ('"' :: go cs ++ ['"'])

/-- The literal of a value, if it has one. -/
def literal? : Value → Option Bytes
  | .str s => some (quoted s)
  | .int i =>
    some (if i == minInteger then "0x8000000000000000" else integerText i).toUTF8
  | .num x =>
    some (match Decimal.parts x with
      | .nan => "(0/0)"
      | .infinite negative => if negative then "-1e9999" else "1e9999"
      | .finite b =>
        let ds := Decimal.hexadecimal b none false
        String.ofList (if b.negative then '-' :: ds else ds)).toUTF8
  | .nil => some "nil".toUTF8
  | .bool b => some (if b then "true" else "false").toUTF8
  | _ => none

/-- Refuses modifiers that the letter does not allow. -/
def check (a : Arguments) (s : Spec) (flags : String) (withPrecision : Bool) : Task Unit := do
  unless s.isValid flags.toList withPrecision do
    a.failAt 1 ("invalid conversion specification: '".toUTF8 ++ ofChars s.text ++ "'".toUTF8)

/-- The text of one item for the argument `i`. -/
def item (a : Arguments) (s : Spec) (i : Nat) : Task Bytes := do
  match s.letter with
  | 'c' =>
    check a s "-" false
    let n ← a.int i
    return ofChars (s.fill [byteChar n.toUInt64.toUInt8])
  | 'd' | 'i' =>
    let n ← a.int i
    check a s "-+0 " true
    return ofChars (s.signed n)
  | 'u' =>
    let n ← a.int i
    check a s "-0" true
    return ofChars (s.unsigned n)
  | 'o' | 'x' | 'X' =>
    let n ← a.int i
    check a s "-#0" true
    return ofChars (s.unsigned n)
  | 'a' | 'A' =>
    check a s "-+#0 " true
    return ofChars (s.float (← a.num i))
  | 'e' | 'E' | 'f' | 'F' | 'g' | 'G' =>
    let x ← a.num i
    check a s "-+#0 " true
    return ofChars (s.float x)
  | 'p' =>
    check a s "-" false
    let text := match a.get i with
      | .table r => addressText 0x55d0c0de0000 r
      | .closure r => addressText 0x55d0cafe0000 r
      | .native f => addressText 0x55d0c0000000 ((hash f).toNat % 65536)
      | .str b => addressText 0x55d0beef0000 (hashBytes b).toNat
      | _ => "(null)"
    return ofChars (s.fill text.toList)
  | 'q' =>
    if s.text.length ≠ 2 then a.fail "specifier '%q' cannot have modifiers"
    match literal? (a.get i) with
    | some t => return t
    | none => a.bad i "value has no literal form"
  | 's' =>
    let t ← a.display (a.get i)
    if s.text.length = 2 then return t
    if t.data.contains 0 then a.bad i "string contains zeros"
    check a s "-" true
    if s.precision.isNone && t.size ≥ 100 then return t
    let cs := toChars t
    let cs := match s.precision with
      | some p => cs.take p
      | none => cs
    return ofChars (s.fill cs)
  | _ => a.failAt 1 ("invalid conversion '".toUTF8
      ++ Reactor.Lua.ofChars (s.text.takeWhile (· != '\x00')) ++ "' to 'format'".toUTF8)

/-- The text of a format from the argument `i` on. -/
def run (a : Arguments) : Nat → List Char → Nat → Bytes → Task Bytes
  | 0, _, _, out => return out
  | fuel + 1, cs, i, out => do
    match cs with
    | [] => return out
    | '%' :: '%' :: r => run a fuel r i (out.push 37)
    | '%' :: r =>
      let i := i + 1
      if !a.has i then a.bad i "no value"
      let modifiers := r.takeWhile isModifier
      if modifiers.length + 1 ≥ 22 then a.fail "invalid format string to 'format'"
      let (letter, rest) := match r.dropWhile isModifier with
        | c :: rest => (c, rest)
        | [] => ('\x00', [])
      let t ← item a (Spec.ofText modifiers letter) i
      Task.checkSize (out.size + t.size)
      run a fuel rest i (out ++ t)
    | c :: r => run a fuel r i (out.push (byteOf c))

end Reactor.Lua.Format
