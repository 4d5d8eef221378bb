/-
  The queue of events.

  Senders put events at the end of a queue of bounded length, the event loop
  takes them from its front.  When the last sender is gone, the queue is closed.

  * `Queue.new?` is an empty queue with one sender; there is none of more than
    `Queue.limit` places;
  * `Queue.send?` waits, that is, gives `none`, while the queue is full.
-/
import Reactor.Event
import Reactor.Word

namespace Reactor

/-- A queue. -/
structure Queue where
  capacity : Nat
  events : List Event
  senders : Nat

namespace Queue

/-- The greatest capacity. -/
def limit : Nat := (Word.count 64 - 1) / 8

/-- A queue for so many events, but at least one, with one sender. -/
def new? (buffer : Nat) : Option Queue :=
  let capacity := max 1 buffer
  if capacity ≤ limit then some ⟨capacity, [], 1⟩ else none

/-- Puts an event at the end, if there are a sender and a place. -/
def send? (q : Queue) (e : Event) : Option Queue :=
  if 0 < q.senders ∧ q.events.length < q.capacity then some { q with events := q.events ++ [e] }
  else none

/-- One more sender, made by one that is there. -/
def share? (q : Queue) : Option Queue :=
  if 0 < q.senders then some { q with senders := q.senders + 1 } else none

/-- One sender less. -/
def leave? (q : Queue) : Option Queue :=
  if 0 < q.senders then some { q with senders := q.senders - 1 } else none

/-- The first event, and the queue without it. -/
def take? (q : Queue) : Option (Event × Queue) :=
  match q.events with
  | e :: rest => some (e, { q with events := rest })
  | [] => none

/-- Whether nothing can come any more. -/
def isExhausted (q : Queue) : Bool := q.events.isEmpty && q.senders = 0

end Queue

end Reactor
