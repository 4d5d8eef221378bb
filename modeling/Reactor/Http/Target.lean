/-
  Targets of requests.

  A target is a path and, after a question mark, a query; what follows a hash
  mark is left out.  In front of the path a scheme and a host may be named.
  Segments of a path and the parts of a query may hold bytes as a percent sign
  and two hexadecimal digits; a percent sign that stands for nothing is itself.

  * `Target.parse` takes a target apart;
  * `decodeSegment` reads a segment, which must be text;
  * `decodeForm` reads a query: names and values, in which a plus sign is a
    space and broken characters are marked.
-/
import Reactor.Text.Digits
import Reactor.Text.Utf8

namespace Reactor.Http

/-- A target: the segments of its path as they stand, and its query. -/
structure Target where
  segments : List String
  query : String
deriving DecidableEq, Repr

/-- The parts of some characters between separators. -/
def splitAt (sep : Char) : List Char → List (List Char)
  | [] => [[]]
  | c :: r =>
    if c == sep then [] :: splitAt sep r
    else match splitAt sep r with
      | first :: rest => (c :: first) :: rest
      | [] => [[c]]

/-- What stands before the first separator, and what follows it. -/
def cutAt (sep : Char) (cs : List Char) : List Char × List Char :=
  (cs.takeWhile (· != sep), (cs.dropWhile (· != sep)).drop 1)

/-- Leaves out a scheme and a host in front of a path. -/
def withoutHost (cs : List Char) : List Char :=
  match cs.span fun c => c != ':' && c != '/' && c != '?' with
  | (_ :: _, ':' :: '/' :: '/' :: r) => r.dropWhile fun c => c != '/' && c != '?'
  | _ => cs

/-- Takes a target apart; a path begins with a slash. -/
def Target.parse (s : String) : Target :=
  let cs := withoutHost (cutAt '#' s.toList).1
  let (path, query) := cutAt '?' cs
  ⟨(splitAt '/' path).drop 1 |>.map String.ofList, String.ofList query⟩

/-- The value of a hexadecimal digit. -/
def hexValue? (b : UInt8) : Option UInt8 :=
  (Text.hexValue? (Char.ofNat b.toNat)).map UInt8.ofNat

/-- The bytes that some bytes with percent signs stand for. -/
def percentDecode : List UInt8 → List UInt8
  | [] => []
  | [a] => [a]
  | [a, b] => [a, b]
  | a :: b :: c :: r =>
    match hexValue? b, hexValue? c with
    | some x, some y => if a == 37 then (16 * x + y) :: percentDecode r else a :: percentDecode (b :: c :: r)
    | _, _ => a :: percentDecode (b :: c :: r)

/-- The text of a segment of a path, if it is one. -/
def decodeSegment (s : String) : Option String :=
  String.fromUTF8? ⟨(percentDecode s.toUTF8.toList).toArray⟩

/-- The text of a part of a query. -/
def decodePart (cs : List Char) : String :=
  let spaced := (String.ofList cs).toUTF8.toList.map fun b => if b == 43 then 32 else b
  Text.Utf8.lossy ⟨(percentDecode spaced).toArray⟩

/-- The names and values of a query. -/
def decodeForm (query : String) : List (String × String) :=
  ((splitAt '&' query.toList).filter (!·.isEmpty)).map fun part =>
    let (k, v) := cutAt '=' part
    (decodePart k, decodePart v)

end Reactor.Http
