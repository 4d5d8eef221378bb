/-
  Tokens.

  `tokens` splits a source text.  A lexeme keeps the line on which its token
  ends and the text that a message shows for it.  Text that starts no token
  gives a last lexeme `bad`, whose message is reported only when a reader
  reaches it; otherwise the list ends with `eof`.
-/
import Reactor.Lua.Number

namespace Reactor.Lua

/-- A token.  Signs are operators and punctuation, or any other single byte. -/
inductive Token where
  | name (s : Bytes)
  | word (w : String)
  | sign (s : String)
  | str (s : Bytes)
  | int (i : Int64)
  | num (x : Float)
  | eof
  /-- text that starts no token: what is wrong, and what to show of it -/
  | bad (message : String) (near : Option Bytes)
deriving DecidableEq, Inhabited

/-- A token with its text and the line on which it ends. -/
structure Lexeme where
  token : Token
  text : Bytes
  line : Nat
deriving Inhabited

/-- The reserved words. -/
def reservedWords : List String :=
  ["and", "break", "do", "else", "elseif", "end", "false", "for", "function", "goto", "if",
   "in", "local", "nil", "not", "or", "repeat", "return", "then", "true", "until", "while"]

/-- The operators and punctuation of more than one character, longest first. -/
def longSigns : List String := ["...", "..", "==", ">=", "<=", "~=", "<<", ">>", "//", "::"]

/-- How a message shows a single byte. -/
def showByte (c : Char) : Bytes :=
  if isPrintable c then ofChars [c]
  else ("<\\" ++ toString c.toNat ++ ">").toUTF8

/-- A character that ends a line. -/
def isNewline (c : Char) : Bool := c == '\n' || c == '\r'

/-- Takes one line break; a pair of different newline characters is one. -/
def takeNewline : List Char → List Char
  | '\r' :: '\n' :: r => r
  | '\n' :: '\r' :: r => r
  | _ :: r => r
  | [] => []

/-- A long bracket's opening after its first `[`: the number of `=` signs and
    what follows the second bracket. -/
def longBracket? (cs : List Char) : Option (Nat × List Char) :=
  let level := (cs.takeWhile (· == '=')).length
  match cs.drop level with
  | '[' :: r => some (level, r)
  | _ => none

/-- Whether a closing long bracket of a level starts here, after its first
    `]`. -/
def closesLong (level : Nat) (cs : List Char) : Option (List Char) :=
  if (cs.take level).length = level && (cs.take level).all (· == '=') then
    match cs.drop level with
    | ']' :: r => some r
    | _ => none
  else none

/-- Reads up to the closing long bracket: the text (reversed), the rest and the
    line.  Line breaks of any kind become a newline. -/
def readLong (level : Nat) : Nat → Nat → List Char → List Char →
    Option (List Char × List Char × Nat)
  | 0, _, _, _ => none
  | _ + 1, _, _, [] => none
  | fuel + 1, line, acc, c :: r =>
    if c == ']' then
      match closesLong level r with
      | some rest => some (acc, rest, line)
      | none => readLong level fuel line (c :: acc) r
    else if isNewline c then readLong level fuel (line + 1) ('\n' :: acc) (takeNewline (c :: r))
    else readLong level fuel line (c :: acc) r

/-- A newline right after the opening bracket is not part of the text. -/
def skipFirstNewline (line : Nat) : List Char → Nat × List Char
  | c :: r => if isNewline c then (line + 1, takeNewline (c :: r)) else (line, c :: r)
  | [] => (line, [])

/-- The end of a quoted string: its text and the rest, or what is wrong. -/
inductive QuotedResult where
  | done (text : List Char) (rest : List Char) (line : Nat)
  | failed (message : String) (near : Option (List Char)) (line : Nat)

/-- Blanks after `\z`, with the line after them. -/
def skipBlanks : Nat → Nat → List Char → Nat × List Char
  | 0, line, cs => (line, cs)
  | _ + 1, line, [] => (line, [])
  | fuel + 1, line, c :: r =>
    if isNewline c then skipBlanks fuel (line + 1) (takeNewline (c :: r))
    else if isSpace c then skipBlanks fuel line r
    else (line, c :: r)

/-- The character of a one-letter escape. -/
def simpleEscape? : Char → Option Char
  | 'a' => some '\x07' | 'b' => some '\x08' | 'f' => some '\x0c' | 'n' => some '\n'
  | 'r' => some '\r' | 't' => some '\t' | 'v' => some '\x0b'
  | '\\' => some '\\' | '"' => some '"' | '\'' => some '\''
  | _ => none

/-- What an escape shows when it is wrong: what was read of it, with the
    character that should not be there. -/
def withOffender (acc : List Char) : List Char → List Char
  | [] => acc
  | c :: _ => c :: acc

/-- The digits of `\u{…}` after the first one. -/
def readCodeDigits (acc : List Char) : Nat → Nat → List Char → List Char →
    Except (String × List Char) (Nat × List Char)
  | 0, x, _, cs => .ok (x, cs)
  | fuel + 1, x, shown, cs =>
    match cs with
    | c :: r =>
      if isHexDigit c then
        if x ≤ 0x7FFFFFFF / 16 then
          readCodeDigits acc fuel (16 * x + hexValue c) (c :: shown) r
        else .error ("UTF-8 value too large", c :: shown ++ acc)
      else if c == '\x7d' then .ok (x, r)
      else .error ("missing '\x7d'", c :: shown ++ acc)
    | [] => .error ("missing '\x7d'", shown ++ acc)

/-- The escape after a backslash: the characters it stands for and the rest.
    An error comes with the text to show, reversed. -/
def readEscape (acc : List Char) (cs : List Char) :
    Except (String × List Char) (List Char × List Char) :=
  let open_ := '\\' :: acc
  match cs with
  | 'x' :: a :: r =>
    if !isHexDigit a then .error ("hexadecimal digit expected", a :: 'x' :: open_)
    else match r with
      | b :: r =>
        if isHexDigit b then .ok ([Char.ofNat (16 * hexValue a + hexValue b)], r)
        else .error ("hexadecimal digit expected", b :: a :: 'x' :: open_)
      | [] => .error ("hexadecimal digit expected", a :: 'x' :: open_)
  | ['x'] => .error ("hexadecimal digit expected", 'x' :: open_)
  | 'u' :: '\x7b' :: a :: r =>
    if !isHexDigit a then .error ("hexadecimal digit expected", a :: '\x7b' :: 'u' :: open_)
    else do
      let (x, r) ← readCodeDigits open_ (r.length + 1) (hexValue a) [a, '\x7b', 'u'] r
      .ok ((wideUtf8 x).reverse, r)
  | ['u', '\x7b'] => .error ("hexadecimal digit expected", '\x7b' :: 'u' :: open_)
  | 'u' :: r => .error ("missing '\x7b'", withOffender ('u' :: open_) r)
  | c :: r =>
    match simpleEscape? c with
    | some d => .ok ([d], r)
    | none =>
      if c.isDigit then
        let ds := (cs.take 3).takeWhile Char.isDigit
        let x := Nat.ofDigitChars 10 ds 0
        let rest := cs.drop ds.length
        if x ≤ 255 then .ok ([Char.ofNat x], rest)
        else .error ("decimal escape too large", withOffender (ds.reverse ++ open_) rest)
      else .error ("invalid escape sequence", c :: open_)
  | [] => .ok ([], [])

/-- The characters of a quoted string up to its closing delimiter; `acc` holds
    what was read, reversed, from the opening delimiter on. -/
def readQuoted (delimiter : Char) : Nat → Nat → List Char → List Char → QuotedResult
  | 0, line, _, _ => .failed "unfinished string" none line
  | _ + 1, line, _, [] => .failed "unfinished string" none line
  | fuel + 1, line, acc, c :: r =>
    if c == delimiter then .done (c :: acc) r line
    else if isNewline c then .failed "unfinished string" (some acc.reverse) line
    else if c == '\\' then
      match r with
      | d :: r' =>
        if isNewline d then
          readQuoted delimiter fuel (line + 1) ('\n' :: acc) (takeNewline (d :: r'))
        else if d == 'z' then
          let (line, rest) := skipBlanks (r'.length + 1) line r'
          readQuoted delimiter fuel line acc rest
        else
          match readEscape acc r with
          | .ok (out, rest) => readQuoted delimiter fuel line (out ++ acc) rest
          | .error (message, shown) => .failed message (some shown.reverse) line
      | [] => .failed "unfinished string" none line
    else readQuoted delimiter fuel line (c :: acc) r

/-- The characters of a numeral, valid or not; `signed` if a sign may follow. -/
def numeralChars (isExponent : Char → Bool) (signed : Bool) : List Char → List Char
  | [] => []
  | c :: r =>
    if signed && (c == '+' || c == '-') then c :: numeralChars isExponent false r
    else if isExponent c then c :: numeralChars isExponent true r
    else if isHexDigit c || c == '.' then c :: numeralChars isExponent false r
    else []

/-- A numeral at the start of a text, with a letter that touches it. -/
def takeNumeral (cs : List Char) : List Char :=
  let body : List Char :=
    match cs with
    | '0' :: x :: r =>
      if x == 'x' || x == 'X' then
        '0' :: x :: numeralChars (fun c => c == 'p' || c == 'P') false r
      else '0' :: numeralChars (fun c => c == 'e' || c == 'E') false (x :: r)
    | c :: r => c :: numeralChars (fun c => c == 'e' || c == 'E') false r
    | [] => []
  match cs.drop body.length with
  | c :: _ => if isLetter c || c == '_' then body ++ [c] else body
  | [] => body

/-- The token at the start of a text that starts with no blank and no comment:
    with its text, the rest, and the line on which it ends. -/
def scanToken (fuel line : Nat) : List Char → Lexeme × List Char
  | [] => (⟨.eof, "<eof>".toUTF8, line⟩, [])
  | c :: r =>
    let cs := c :: r
    let bad := fun (message : String) (near : Option (List Char)) (line : Nat) =>
      ((⟨.bad message (near.map ofChars), .empty, line⟩ : Lexeme), ([] : List Char))
    if isLetter c || c == '_' then
      let isPart := fun d => isAlnum d || d == '_'
      let word := cs.takeWhile isPart
      let text := ofChars word
      let w := String.ofList word
      (⟨if reservedWords.contains w then .word w else .name text, text, line⟩, cs.dropWhile isPart)
    else if c.isDigit || (c == '.' && (r.take 1).any Char.isDigit) then
      let numeral := takeNumeral cs
      match readNumber? numeral with
      | some (.int i) => (⟨.int i, ofChars numeral, line⟩, cs.drop numeral.length)
      | some (.num x) => (⟨.num x, ofChars numeral, line⟩, cs.drop numeral.length)
      | _ => bad "malformed number" (some numeral) line
    else if c == '"' || c == '\'' then
      match readQuoted c fuel line [c] r with
      | .done acc rest line =>
        let all := acc.reverse
        (⟨.str (ofChars ((all.drop 1).dropLast)), ofChars all, line⟩, rest)
      | .failed message near line => bad message near line
    else if c == '[' && ((r.take 1 == ['[']) || (r.take 1 == ['='])) then
      match longBracket? r with
      | some (level, rest) =>
        let (first, rest) := skipFirstNewline line rest
        match readLong level fuel first [] rest with
        | some (acc, rest, line) =>
          let bars := List.replicate level '='
          let text := acc.reverse
          (⟨.str (ofChars text),
            ofChars ('[' :: bars ++ '[' :: text ++ ']' :: bars ++ [']']), line⟩, rest)
        | none =>
          let last := rest.foldl (fun n c => if c == '\n' then n + 1 else n) first
          bad ("unfinished long string (starting at line " ++ toString line ++ ")") none last
      | none => bad "invalid long string delimiter" (some ('[' :: r.takeWhile (· == '='))) line
    else
      match longSigns.find? fun s => s.toList.isPrefixOf cs with
      | some s => (⟨.sign s, s.toUTF8, line⟩, cs.drop s.length)
      | none => (⟨.sign (String.singleton c), showByte c, line⟩, r)

/-- The tokens of a text from a line on. -/
def scan : Nat → Nat → List Char → List Lexeme
  | 0, line, _ => [⟨.eof, "<eof>".toUTF8, line⟩]
  | fuel + 1, line, cs =>
    match cs with
    | [] => [⟨.eof, "<eof>".toUTF8, line⟩]
    | '-' :: '-' :: '[' :: r =>
      match longBracket? r with
      | some (level, rest) =>
        let (first, rest) := skipFirstNewline line rest
        match readLong level fuel first [] rest with
        | some (_, rest, line) => scan fuel line rest
        | none =>
          let last := rest.foldl (fun n c => if c == '\n' then n + 1 else n) first
          [⟨.bad ("unfinished long comment (starting at line " ++ toString line ++ ")") none,
            .empty, last⟩]
      | none => scan fuel line (r.dropWhile fun c => !isNewline c)
    | '-' :: '-' :: r => scan fuel line (r.dropWhile fun c => !isNewline c)
    | c :: r =>
      if isNewline c then scan fuel (line + 1) (takeNewline (c :: r))
      else if isSpace c then scan fuel line r
      else
        let (lexeme, rest) := scanToken fuel line (c :: r)
        match lexeme.token with
        | .bad .. => [lexeme]
        | _ => lexeme :: scan fuel lexeme.line rest

/-- The tokens of a source text, up to its end or to text that is no token. -/
def tokens (source : Bytes) : List Lexeme :=
  let cs := toChars source
  scan (cs.length + 1) 1 cs

end Reactor.Lua
