/-
  Addresses to listen on.

  An address is a host and, after the last colon, a port.  The service listens
  on the addresses of its own machine only.

  * `Endpoint.ofText` takes an address apart, or says what is wrong with it;
  * `listen` says whether the service can listen on an address.
-/
import Reactor.ServiceError
import Reactor.Text.Digits
import Reactor.Word

namespace Reactor.Http

/-- A host and a port. -/
structure Endpoint where
  host : String
  port : Nat
deriving DecidableEq, Repr

/-- The number of a port. -/
def port? (cs : List Char) : Option Nat := (Text.natural? cs).filter (· < Word.count 16)

/-- The endpoint that an address is. -/
def Endpoint.ofText (s : String) : Except ServiceError Endpoint :=
  let cs := s.toList.reverse
  match cs.dropWhile (· != ':') with
  | [] => .error (.io "InvalidInput" "invalid socket address")
  | _ :: host =>
    match port? (cs.takeWhile (· != ':')).reverse with
    | some port => .ok ⟨String.ofList host.reverse, port⟩
    | none => .error (.io "InvalidInput" "invalid port value")

/-- The four numbers of an address of version 4. -/
def octets? (host : String) : Option (List Nat) :=
  let octet? (s : String) : Option Nat :=
    let cs := s.toList
    if cs.isEmpty || cs.length > 3 || !cs.all Char.isDigit || (cs.length > 1 && cs.head? == some '0')
    then none
    else
      let n := Nat.ofDigitChars 10 cs 0
      if n < 256 then some n else none
  match (host.splitOn ".").mapM octet? with
  | some [a, b, c, d] => some [a, b, c, d]
  | _ => none

/-- Whether an address of version 4 is one of this machine, or any. -/
def isOwn : List Nat → Bool
  | [127, _, _, _] => true
  | [0, 0, 0, 0] => true
  | _ => false

/-- Whether the service can listen on an address. -/
def listen (s : String) : Except ServiceError Unit := do
  let e ← Endpoint.ofText s
  if e.host = "localhost" ∨ e.host = "[::1]" ∨ e.host = "[::]" then return ()
  else match octets? e.host with
    | some octets =>
      if isOwn octets then return ()
      else .error (.io "AddrNotAvailable" "Cannot assign requested address (os error 99)")
    | none => .error (.io "Uncategorized" "failed to lookup address information")

end Reactor.Http
