/-
  How pipelines end, and what is counted.

  * `Status` is how a pipeline has ended;
  * `Metrics` counts events and ended pipelines in words of 64 bits, which wrap.
-/
import Reactor.Json.Decoder

namespace Reactor

/-- How a pipeline has ended. -/
inductive Status where
  /-- the chain ran and stopped -/
  | done
  /-- the first script chose not to start -/
  | notLaunched
  /-- a script or an action failed -/
  | error
deriving DecidableEq, Repr, Inhabited

namespace Status

/-- The word for a status in JSON. -/
def word : Status → String
  | done => "done"
  | notLaunched => "not_launched"
  | error => "error"

/-- The name of a status for a reader. -/
def display : Status → String
  | done => "done"
  | notLaunched => "not launched"
  | error => "error"

/-- All of them. -/
def all : List Status := [done, notLaunched, error]

/-- The status with a word. -/
def ofWord? (w : String) : Option Status := all.find? (·.word == w)

/-- The form of a status. -/
def form : Json.Decoder Json := .choice (all.map word)

/-- The status that a text holds. -/
def decode (s : String) : Except Json.ReadError Status := do
  match ← Json.decode form s with
  | .str w => .ok ((ofWord? w).getD .error)
  | _ => .ok .error

end Status

/-- Counts of events and of pipelines. -/
structure Metrics where
  received : UInt64
  matched : UInt64
  unmatched : UInt64
  done : UInt64
  notLaunched : UInt64
  failed : UInt64
deriving DecidableEq, Repr, Inhabited

namespace Metrics

/-- Nothing counted yet. -/
def zero : Metrics := ⟨0, 0, 0, 0, 0, 0⟩

/-- Counts an event. -/
def countReceived (m : Metrics) : Metrics := { m with received := m.received + 1 }

/-- Counts an event that some reaction is for. -/
def countMatched (m : Metrics) : Metrics := { m with matched := m.matched + 1 }

/-- Counts an event that no reaction is for. -/
def countUnmatched (m : Metrics) : Metrics := { m with unmatched := m.unmatched + 1 }

/-- Counts a pipeline that has ended. -/
def countEnded (m : Metrics) : Status → Metrics
  | .done => { m with done := m.done + 1 }
  | .notLaunched => { m with notLaunched := m.notLaunched + 1 }
  | .error => { m with failed := m.failed + 1 }

/-- The names of the counts, in order. -/
def names : List String :=
  ["events_received", "events_matched", "events_unmatched", "pipelines_done",
    "pipelines_not_launched", "pipelines_error"]

/-- The counts, in order. -/
def counts (m : Metrics) : List UInt64 :=
  [m.received, m.matched, m.unmatched, m.done, m.notLaunched, m.failed]

/-- The JSON of the counts. -/
def toJson (m : Metrics) : Json := .obj (names.zip (m.counts.map fun n => .nat n.toNat))

/-- The counts whose fields an object holds. -/
def ofJson (j : Json) : Metrics :=
  let count (k : String) : UInt64 := .ofNat (j.natAt k)
  ⟨count "events_received", count "events_matched", count "events_unmatched",
    count "pipelines_done", count "pipelines_not_launched", count "pipelines_error"⟩

/-- The form of the counts. -/
def form : Json.Decoder Json :=
  .record "struct MetricsSnapshot" (names.map fun k => Json.Decoder.required k .natural)

/-- The counts that a text holds. -/
def decode (s : String) : Except Json.ReadError Metrics := (Json.decode form s).map ofJson

end Metrics

end Reactor
