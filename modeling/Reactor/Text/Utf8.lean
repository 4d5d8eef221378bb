/-
  Bytes as UTF-8.

  * `leading` takes the first character off some bytes, or says how many bytes
    of a broken one to pass over;
  * `fault?` is the first place where bytes are no UTF-8;
  * `lossy` reads any bytes, with a mark for each broken character.
-/

namespace Reactor.Text.Utf8

/-- Where bytes stop being UTF-8: after how many valid ones, and how long the
    broken character is; `none` if it is cut off by the end. -/
structure Fault where
  validUpTo : Nat
  length : Option Nat
deriving DecidableEq, Repr

/-- What a fault says. -/
def Fault.message (f : Fault) : String :=
  match f.length with
  | some n => "invalid utf-8 sequence of " ++ toString n ++ " bytes from index "
      ++ toString f.validUpTo
  | none => "incomplete utf-8 byte sequence from index " ++ toString f.validUpTo

/-- The first character of some bytes. -/
inductive Leading where
  | char (size : Nat) (c : Char)
  | broken (length : Option Nat)

/-- A byte that goes on with a character. -/
def isTail (b : UInt8) : Bool := 0x80 ≤ b && b ≤ 0xBF

/-- The bits that a byte after the first adds. -/
def addTail (n : Nat) (b : UInt8) : Nat := n * 64 + b.toNat % 64

/-- The range of the second byte after a first byte of three or four. -/
def secondRange (b : UInt8) : UInt8 × UInt8 :=
  if b == 0xE0 then (0xA0, 0xBF)
  else if b == 0xED then (0x80, 0x9F)
  else if b == 0xF0 then (0x90, 0xBF)
  else if b == 0xF4 then (0x80, 0x8F)
  else (0x80, 0xBF)

/-- The first character of some bytes, of which there is one. -/
def leading (b : UInt8) (r : List UInt8) : Leading :=
  if b < 0x80 then .char 1 (Char.ofNat b.toNat)
  else if b < 0xC2 || b > 0xF4 then .broken (some 1)
  else if b < 0xE0 then
    match r with
    | [] => .broken none
    | c :: _ => if isTail c then .char 2 (Char.ofNat (addTail (b.toNat % 32) c)) else .broken (some 1)
  else
    let (low, high) := secondRange b
    match r with
    | [] => .broken none
    | c :: r =>
      if c < low || c > high then .broken (some 1)
      else match r with
        | [] => .broken none
        | d :: r =>
          if !isTail d then .broken (some 2)
          else if b < 0xF0 then .char 3 (Char.ofNat (addTail (addTail (b.toNat % 16) c) d))
          else match r with
            | [] => .broken none
            | e :: _ =>
              if isTail e then .char 4 (Char.ofNat (addTail (addTail (addTail (b.toNat % 8) c) d) e))
              else .broken (some 3)

/-- The first fault of some bytes, `at_` bytes into a text. -/
def faultFrom : Nat → Nat → List UInt8 → Option Fault
  | 0, _, _ => none
  | _ + 1, _, [] => none
  | fuel + 1, at_, b :: r =>
    match leading b r with
    | .char n _ => faultFrom fuel (at_ + n) (r.drop (n - 1))
    | .broken length => some ⟨at_, length⟩

/-- The first place where bytes are no UTF-8. -/
def fault? (s : ByteArray) : Option Fault :=
  if s.IsValidUTF8 then none else faultFrom (s.size + 1) 0 s.toList

/-- The characters of bytes, with a mark for each broken one. -/
def lossyFrom : Nat → List UInt8 → List Char
  | 0, _ => []
  | _ + 1, [] => []
  | fuel + 1, b :: r =>
    match leading b r with
    | .char n c => c :: lossyFrom fuel (r.drop (n - 1))
    | .broken (some n) => '\uFFFD' :: lossyFrom fuel (r.drop (n - 1))
    | .broken none => ['\uFFFD']

/-- The text of any bytes, with a mark for each broken character. -/
def lossy (s : ByteArray) : String :=
  match String.fromUTF8? s with
  | some t => t
  | none => String.ofList (lossyFrom (s.size + 1) s.toList)

/-- The text of bytes, or where they are none. -/
def decode (s : ByteArray) : Except Fault String :=
  match String.fromUTF8? s with
  | some t => .ok t
  | none => .error ((fault? s).getD ⟨0, none⟩)

end Reactor.Text.Utf8
