/-
  Patterns.

  `matchAt` tries a pattern at one place of a text, with backtracking.  Every
  step spends one unit of fuel and either goes on in the pattern or in the
  text, so the two sizes together are enough.

  * `classEnd` finds the end of one item of a pattern;
  * `single` tells whether one character belongs to an item;
  * `captureValue` is what a capture stands for.
-/
import Reactor.Lua.Library.Arguments

namespace Reactor.Lua.Pattern

/-- How far a capture has come. -/
inductive Extent where
  | size (n : Nat)
  | unfinished
  | position
deriving DecidableEq, Inhabited

/-- A capture: where it starts and its extent. -/
structure Capture where
  start : Nat
  extent : Extent
deriving Inhabited

/-- The captures of a match under way. -/
abbrev Captures := Array Capture

/-- A text and a pattern. -/
structure Job where
  subject : Bytes
  pattern : Bytes

/-- The byte at a place, zero beyond the end. -/
def byteAt (s : Bytes) (i : Nat) : UInt8 := if h : i < s.size then s[i] else 0

/-- The character at a place. -/
def at_ (s : Bytes) (i : Nat) : Char := byteChar (byteAt s i)

/-- The most captures of a pattern. -/
def maxCaptures : Nat := 32

/-- The most choices under way at once. -/
def maxNesting : Nat := 200

/-- Whether a character belongs to the class of a letter; an upper-case letter
    is the complement. -/
def inClass (c cl : Char) : Bool :=
  let plain : Option Bool :=
    match (byteChar (lowerByte (byteOf cl))) with
    | 'a' => some (isLetter c)
    | 'c' => some (isControl c)
    | 'd' => some (c.isDigit)
    | 'g' => some (isGraphic c)
    | 'l' => some (isLower c)
    | 'p' => some (isPunctuation c)
    | 's' => some (isSpace c)
    | 'u' => some (isUpper c)
    | 'w' => some (isAlnum c)
    | 'x' => some (isHexDigit c)
    | 'z' => some (c.toNat == 0)
    | _ => none
  match plain with
  | some b => if isUpper cl then !b else b
  | none => cl == c

/-- The place after the closing bracket of a set; `p` is in the set. -/
def setEnd (pat : Bytes) : Nat → Nat → Except String Nat
  | 0, _ => .error "malformed pattern (missing ']')"
  | fuel + 1, p =>
    if p ≥ pat.size then .error "malformed pattern (missing ']')"
    else
      let next := if at_ pat p == '%' && p + 1 < pat.size then p + 2 else p + 1
      if at_ pat next == ']' && next < pat.size then .ok (next + 1) else setEnd pat fuel next

/-- The place after the item at `p`. -/
def classEnd (pat : Bytes) (p : Nat) : Except String Nat :=
  match at_ pat p with
  | '%' => if p + 1 ≥ pat.size then .error "malformed pattern (ends with '%')" else .ok (p + 2)
  | '[' => setEnd pat (pat.size + 1) (if at_ pat (p + 1) == '^' then p + 2 else p + 1)
  | _ => .ok (p + 1)

/-- Whether a character belongs to the set between `p` and the bracket at
    `last`. -/
def inSetFrom (pat : Bytes) (c : Char) (last : Nat) : Nat → Nat → Bool
  | 0, _ => false
  | fuel + 1, p =>
    if p ≥ last then false
    else if at_ pat p == '%' then
      inClass c (at_ pat (p + 1)) || inSetFrom pat c last fuel (p + 2)
    else if at_ pat (p + 1) == '-' && p + 2 < last then
      (at_ pat p ≤ c && c ≤ at_ pat (p + 2)) || inSetFrom pat c last fuel (p + 3)
    else at_ pat p == c || inSetFrom pat c last fuel (p + 1)

/-- Whether a character belongs to the set that starts at `p` and whose bracket
    closes at `last`. -/
def inSet (pat : Bytes) (c : Char) (p last : Nat) : Bool :=
  if at_ pat (p + 1) == '^' then !inSetFrom pat c last pat.size (p + 2)
  else inSetFrom pat c last pat.size (p + 1)

/-- Whether the character at `s` belongs to the item from `p` to `ep`. -/
def single (j : Job) (s p ep : Nat) : Bool :=
  if s ≥ j.subject.size then false
  else
    let c := at_ j.subject s
    match at_ j.pattern p with
    | '.' => true
    | '%' => inClass c (at_ j.pattern (p + 1))
    | '[' => inSet j.pattern c p (ep - 1)
    | d => d == c

/-- How many characters from `s` on belong to an item. -/
def countSingle (j : Job) (p ep : Nat) : Nat → Nat → Nat
  | 0, _ => 0
  | fuel + 1, s => if single j s p ep then countSingle j p ep fuel (s + 1) + 1 else 0

/-- The place after the text that is balanced between two characters. -/
def balanced (j : Job) (opening closing : Char) : Nat → Nat → Nat → Option Nat
  | 0, _, _ => none
  | fuel + 1, s, depth =>
    if s ≥ j.subject.size then none
    else
      let c := at_ j.subject s
      if c == closing then
        if depth = 1 then some (s + 1) else balanced j opening closing fuel (s + 1) (depth - 1)
      else if c == opening then balanced j opening closing fuel (s + 1) (depth + 1)
      else balanced j opening closing fuel (s + 1) depth

/-- The last capture that is not finished. -/
def lastOpen (caps : Captures) : Option Nat :=
  ((List.range caps.size).reverse).find? fun i =>
    match (caps.getD i default).extent with
    | .unfinished => true
    | _ => false

/-- The capture that a digit refers to. -/
def referred (caps : Captures) (d : Char) : Except String Nat :=
  let l := d.toNat - 49
  let bad : Except String Nat := .error ("invalid capture index %" ++ toString (d.toNat - 48))
  if d == '0' then bad
  else match caps[l]? with
    | none => bad
    | some c => match c.extent with
      | .unfinished => bad
      | _ => .ok l

/-- What a match gives: nothing, or where it ends with its captures. -/
abbrev Result := Except String (Option (Nat × Captures))

/-- Tries `count + 1` continuations, from the longest on. -/
def longestFirst (rest : Nat → Result) (s : Nat) : Nat → Result
  | 0 => rest s
  | n + 1 => do
    match ← rest (s + n + 1) with
    | some r => return some r
    | none => longestFirst rest s n

/-- Tries continuations, from the shortest on, as long as `more` allows. -/
def shortestFirst (rest : Nat → Result) (more : Nat → Bool) : Nat → Nat → Result
  | 0, s => rest s
  | fuel + 1, s => do
    match ← rest s with
    | some r => return some r
    | none => if more s then shortestFirst rest more fuel (s + 1) else return none

/-- Tries the pattern from `p` on at the place `s` of the text; `nesting` is how
    many more choices may be under way. -/
def matchFrom (j : Job) : Nat → Nat → Nat → Nat → Captures → Result
  | 0, _, _, _, _ => .error "pattern too complex"
  | _ + 1, 0, _, _, _ => .error "pattern too complex"
  | fuel + 1, nesting + 1, s, p, caps =>
    let pat := j.pattern
    -- goes on without a new choice
    let on := fun (s p : Nat) (caps : Captures) => matchFrom j fuel (nesting + 1) s p caps
    -- goes on under a choice
    let under := fun (s p : Nat) (caps : Captures) => matchFrom j fuel nesting s p caps
    let item : Unit → Result := fun _ => do
      let ep ← classEnd pat p
      let suffix := if ep < pat.size then at_ pat ep else ' '
      if !single j s p ep then
        match suffix with
        | '*' | '?' | '-' => on s (ep + 1) caps
        | _ => return none
      else
        match suffix with
        | '?' =>
          match ← under (s + 1) (ep + 1) caps with
          | some r => return some r
          | none => on s (ep + 1) caps
        | '+' =>
          let n := countSingle j p ep (j.subject.size - s) (s + 1)
          longestFirst (fun s => under s (ep + 1) caps) (s + 1) n
        | '*' =>
          let n := countSingle j p ep (j.subject.size - s + 1) s
          longestFirst (fun s => under s (ep + 1) caps) s n
        | '-' =>
          shortestFirst (fun s => under s (ep + 1) caps) (fun s => single j s p ep)
            (j.subject.size - s + 1) s
        | _ => on (s + 1) ep caps
    if p ≥ pat.size then .ok (some (s, caps))
    else match at_ pat p with
      | '(' =>
        if caps.size ≥ maxCaptures then .error "too many captures"
        else if at_ pat (p + 1) == ')' then under s (p + 2) (caps.push ⟨s, .position⟩)
        else under s (p + 1) (caps.push ⟨s, .unfinished⟩)
      | ')' =>
        match lastOpen caps with
        | none => .error "invalid pattern capture"
        | some l =>
          let start := (caps.getD l default).start
          under s (p + 1) (caps.setIfInBounds l ⟨start, .size (s - start)⟩)
      | '$' => if p + 1 = pat.size then .ok (if s = j.subject.size then some (s, caps) else none)
        else item ()
      | '%' =>
        match at_ pat (p + 1) with
        | 'b' =>
          if p + 3 ≥ pat.size then .error "malformed pattern (missing arguments to '%b')"
          else if s < j.subject.size && at_ j.subject s == at_ pat (p + 2) then
            match balanced j (at_ pat (p + 2)) (at_ pat (p + 3)) j.subject.size (s + 1) 1 with
            | some s => on s (p + 4) caps
            | none => .ok none
          else .ok none
        | 'f' =>
          if at_ pat (p + 2) != '[' then .error "missing '[' after '%f' in pattern"
          else do
            let ep ← classEnd pat (p + 2)
            let previous := if s = 0 then '\x00' else at_ j.subject (s - 1)
            if !inSet pat previous (p + 2) (ep - 1) && inSet pat (at_ j.subject s) (p + 2) (ep - 1)
            then on s ep caps
            else return none
        | d =>
          if d.isDigit then do
            let l ← referred caps d
            let c := caps.getD l default
            match c.extent with
            | .size n =>
              if s + n ≤ j.subject.size
                && j.subject.extract s (s + n) == j.subject.extract c.start (c.start + n)
              then on (s + n) (p + 2) caps
              else return none
            | _ => return none
          else item ()
      | _ => item ()

/-- Tries the pattern from `p` on at one place of the text. -/
def matchAt (j : Job) (s p : Nat) : Result :=
  matchFrom j (j.subject.size + j.pattern.size + 2) maxNesting s p #[]

/-- The first place from `s` on where the pattern succeeds. -/
def search (j : Job) (p : Nat) (anchored : Bool) : Nat → Nat →
    Except String (Option (Nat × Nat × Captures))
  | 0, _ => .ok none
  | fuel + 1, s => do
    match ← matchAt j s p with
    | some (e, caps) => return some (s, e, caps)
    | none => if anchored then return none else search j p anchored fuel (s + 1)

/-- The characters that make a text more than itself as a pattern. -/
def isSpecial (c : Char) : Bool :=
  c == '^' || c == '$' || c == '*' || c == '+' || c == '?' || c == '.' || c == '(' || c == '['
    || c == '%' || c == '-'

/-- Whether a text as a pattern stands for itself. -/
def isPlain (pat : Bytes) : Bool := pat.data.all fun b => !isSpecial (byteChar b)

/-- Whether `pat` stands at the place `s` of a text. -/
def standsAt (text pat : Bytes) (s : Nat) : Nat → Nat → Bool
  | 0, _ => true
  | fuel + 1, i =>
    if byteAt text (s + i) == byteAt pat i then standsAt text pat s fuel (i + 1) else false

/-- The first place from `s` on where a text holds another. -/
def findPlain (text pat : Bytes) : Nat → Nat → Option Nat
  | 0, _ => none
  | fuel + 1, s =>
    if s + pat.size > text.size then none
    else if standsAt text pat s pat.size 0 then some s
    else findPlain text pat fuel (s + 1)

/-- What a capture stands for; the whole match stands for the first if there is
    none. -/
def captureValue (j : Job) (caps : Captures) (s e i : Nat) : Except String Value :=
  match caps[i]? with
  | none =>
    if i = 0 then .ok (.str (j.subject.extract s e))
    else .error ("invalid capture index %" ++ toString (i + 1))
  | some c =>
    match c.extent with
    | .position => .ok (.int (.ofNat (c.start + 1)))
    | .unfinished => .error "unfinished capture"
    | .size n => .ok (.str (j.subject.extract c.start (c.start + n)))

/-- The values of all captures; of none, the whole match if asked. -/
def captureValues (j : Job) (caps : Captures) (s e : Nat) (whole : Bool) :
    Except String (Array Value) :=
  let n := if caps.isEmpty && whole then 1 else caps.size
  (List.range n).foldlM (fun out i => do return out.push (← captureValue j caps s e i)) #[]

end Reactor.Lua.Pattern
