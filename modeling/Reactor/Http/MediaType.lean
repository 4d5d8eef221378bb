/-
  Media types of bodies.

  A media type has a type and a subtype, which may end in a suffix after a plus
  sign, and parameters after a semicolon, whose values may be in quotes.

  * `isJson` says whether a media type stands for JSON: `application/json`, or
    any subtype of `application` whose suffix is `json`.
-/

namespace Reactor.Http.MediaType

/-- A character of a name. -/
def isToken (c : Char) : Bool :=
  c.isAlphanum || "!#$%&'*+-.^_`|~".toList.contains c

/-- A character inside quotes. -/
def isQuotable (c : Char) : Bool := c.toNat > 31 && c.toNat != 127 && c.toNat < 128

/-- What follows a value in quotes: blanks, then the end or a semicolon. -/
def afterQuoted : List Char → Option (List Char)
  | [] => some []
  | ' ' :: r => afterQuoted r
  | ';' :: r => some r
  | _ :: _ => none

/-- What follows the value of a parameter; `none` if it is no value. -/
def afterValue (cs : List Char) : Option (List Char) :=
  match cs with
  | '"' :: r =>
    match r with
    | [] => none
    | c :: r =>
      -- the first character in quotes is taken as it comes
      if !isQuotable c then none
      else
        let rest := r.dropWhile fun c => c != '"' && isQuotable c
        match rest with
        | '"' :: r => afterQuoted r
        | _ => none
  | cs =>
    match cs.dropWhile isToken with
    | [] => some []
    | ';' :: r => if (cs.head?.any isToken) then some r else none
    | _ :: _ => none

/-- Whether some characters are parameters. -/
def areParameters : Nat → List Char → Bool
  | 0, _ => false
  | _ + 1, [] => true
  | fuel + 1, ' ' :: r => areParameters fuel r
  | fuel + 1, cs =>
    match cs.takeWhile isToken, cs.dropWhile isToken with
    | _ :: _, '=' :: r =>
      match afterValue r with
      | some r => areParameters fuel r
      | none => false
    | _, _ => false

/-- What stands before the last plus sign, if there is one after the first
    character, and what stands after it. -/
def splitSuffix (sub : List Char) : List Char × Option (List Char) :=
  let before := (sub.reverse.dropWhile (· != '+')).drop 1
  if before.isEmpty then (sub, none)
  else (before.reverse, some (sub.reverse.takeWhile (· != '+')).reverse)

/-- Whether a media type stands for JSON. -/
def isJson (s : String) : Bool :=
  let cs := s.toList.map Char.toLower
  match cs.takeWhile isToken, cs.dropWhile isToken with
  | top, '/' :: r =>
    let sub := r.takeWhile isToken
    let wellFormed := !top.isEmpty && (match r.dropWhile isToken with
      | [] => true
      | ';' :: ps => !sub.isEmpty && areParameters (ps.length + 1) ps
      | _ => false)
    let (name, suffix?) := splitSuffix sub
    wellFormed && String.ofList top == "application"
      && (String.ofList name == "json" || suffix?.any (String.ofList · == "json"))
  | _, _ => false

end Reactor.Http.MediaType
