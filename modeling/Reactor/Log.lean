/-
  Lines of the log.

  A line has a severity, the part of the service that it comes from, and a text.
  Which lines are written is said by rules such as `info` or `api=debug`: the
  rule with the longest name that a part's name begins with decides, and the
  later of two rules with one name.

  * `Line` is a line, `Severity` how severe it is;
  * `Rule` lets the lines of some parts pass down to a severity; `Rules.ofText?`
    reads rules, `Rules.lenient` passes over those that cannot be read;
  * `Rules.pass` says whether a line is written.
-/
import Reactor.Json.Printer
import Reactor.Text.Blank
import Reactor.Text.Digits

namespace Reactor.Log

/-- How severe a line is. -/
inductive Severity where
  | error
  | warn
  | info
  | debug
  | trace
deriving DecidableEq, Repr

/-- The number of a severity; less severe ones have greater numbers. -/
def Severity.rank : Severity → Nat
  | error => 1
  | warn => 2
  | info => 3
  | debug => 4
  | trace => 5

/-- The name of a severity in lines of the log. -/
def Severity.name : Severity → String
  | error => "ERROR"
  | warn => "WARN"
  | info => "INFO"
  | debug => "DEBUG"
  | trace => "TRACE"

/-- A line. -/
structure Line where
  severity : Severity
  source : String
  text : String
deriving DecidableEq, Repr

/-- A line for a reader. -/
def Line.show (l : Line) : String := l.severity.name ++ " " ++ l.source ++ ": " ++ l.text

/-- The JSON of a line. -/
def Line.toJson (l : Line) : Json :=
  .obj [("level", .str l.severity.name), ("fields", .obj [("message", .str l.text)]),
    ("target", .str l.source)]

/-! ## Rules -/

/-- Lets lines pass whose rank is at most `most`, if their source begins with a
    name. -/
structure Rule where
  name : String
  most : Nat
deriving DecidableEq, Repr

/-- Rules, of which the decisive one comes first. -/
abbrev Rules := List Rule

/-- The rank that a word stands for: a name, whatever its case, or a number. -/
def rank? (word : String) : Option Nat :=
  match Text.natural? word.toList with
  | some n => if n ≤ 5 then some n else none
  | none =>
    match String.ofList (word.toList.map Char.toLower) with
    | "off" => some 0
    | "error" | "" => some 1
    | "warn" => some 2
    | "info" => some 3
    | "debug" => some 4
    | "trace" => some 5
    | _ => none

/-- Whether a rule may begin with a character. -/
def isFirst (c : Char) : Bool :=
  c.isAlphanum || c == '-' || c == ':' || c == '_' || c.toNat ≥ 128

/-- The rule that a text is: a severity for all lines, a name whose lines all
    pass, or a name with a severity. -/
def Rule.ofText? (s : String) : Option Rule :=
  let cs := Text.trim s.toList
  if !(cs.take 1).all isFirst || cs.isEmpty || cs.contains '[' then none
  else
    let name := String.ofList (cs.takeWhile (· != '='))
    match cs.dropWhile (· != '=') with
    | [] =>
      match rank? name with
      | some n => some ⟨"", n⟩
      | none => some ⟨name, 5⟩
    | ['='] => some ⟨name, 5⟩
    | _ :: word => (rank? (String.ofList word)).map (⟨name, ·⟩)

/-- Puts a rule among others, longer names first, in place of one with its
    name. -/
def Rules.insert (r : Rule) : Rules → Rules
  | [] => [r]
  | r' :: rest =>
    if r'.name = r.name then r :: rest
    else if r'.name.length < r.name.length then r :: r' :: rest
    else r' :: insert r rest

/-- Rules in their order; without any, errors pass. -/
def Rules.ofList (rs : List Rule) : Rules :=
  if rs.isEmpty then [⟨"", 1⟩] else rs.foldl (fun out r => Rules.insert r out) []

/-- The parts of a text between commas that are not empty. -/
def parts (s : String) : List String := (s.splitOn ",").filter (· != "")

/-- The rules that a text is, if all of them can be read. -/
def Rules.ofText? (s : String) : Option Rules := ((parts s).mapM Rule.ofText?).map .ofList

/-- The rules in a text that can be read. -/
def Rules.lenient (s : String) : Rules := .ofList ((parts s).filterMap Rule.ofText?)

/-- Whether a line is written. -/
def Rules.pass (rs : Rules) (l : Line) : Bool :=
  match rs.find? fun r => r.name.isPrefixOf l.source with
  | some r => l.severity.rank ≤ r.most
  | none => false

end Reactor.Log
