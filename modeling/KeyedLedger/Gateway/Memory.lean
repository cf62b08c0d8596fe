import KeyedLedger.Json.Value
import KeyedLedger.Time.Timestamp

/-! # Remembered requests

A gateway remembers the keys it has seen for a while: those that are in flight, and those that
are completed with the answer that was given. What it remembers saves a trip to the ledger and
decides nothing else, since the ledger knows every key that has been used.
-/

namespace KeyedLedger

/-- A request that is completed, with its type and its answer. -/
structure Completed where
  requestType : String
  payload : Json

/-- The request as JSON. -/
def Completed.toJson (c : Completed) : Json :=
  .object [("request_type", .string c.requestType), ("payload", c.payload)]

/-- What is remembered of a key. -/
inductive Trace where
  | inFlight (since : Timestamp)
  | completed (request : Completed) (time : Timestamp)

namespace Trace

/-- When the key was last touched. -/
def touched : Trace → Timestamp
  | inFlight since => since
  | completed _ time => time

/-- The key is in flight. -/
def isInFlight : Trace → Bool
  | inFlight _ => true
  | completed _ _ => false

end Trace

/-- What is remembered, by key, and for how many nanoseconds. -/
structure Memory where
  lifetime : Int
  traces : List (String × Trace) := []

namespace Memory

/-- What is remembered of a key, however old it is. -/
def trace? (m : Memory) (key : String) : Option Trace :=
  m.traces.lookup key

/-- The trace is not too old. -/
def isLive (m : Memory) (now : Timestamp) (t : Trace) : Bool :=
  now.since t.touched < m.lifetime

/-- The traces with that of a key replaced. -/
def replace (key : String) (t : Trace) : List (String × Trace) → List (String × Trace)
  | [] => [(key, t)]
  | (k, u) :: rest => if k = key then (k, t) :: rest else (k, u) :: replace key t rest

/-- The key is in flight or completed. -/
def isKnown (m : Memory) (now : Timestamp) (key : String) : Bool :=
  (m.trace? key).any (m.isLive now)

/-- A command under the key is about to be published. A completed request stays as it is. -/
def markInFlight (m : Memory) (now : Timestamp) (key : String) : Memory :=
  match m.trace? key with
  | some (.completed _ _) => m
  | _ => { m with traces := replace key (.inFlight now) m.traces }

/-- The request under the key is completed. -/
def markCompleted (m : Memory) (now : Timestamp) (key : String) (request : Completed) : Memory :=
  { m with traces := replace key (.completed request now) m.traces }

/-- The request under the key is no longer in flight. A completed request stays as it is. -/
def clear (m : Memory) (key : String) : Memory :=
  { m with traces := m.traces.filter fun (k, t) => !(k = key && t.isInFlight) }

/-- The completed request under the key, unless it is too old. -/
def completed? (m : Memory) (now : Timestamp) (key : String) : Option Completed :=
  match m.trace? key with
  | some (.completed request time) =>
    if m.isLive now (.completed request time) then some request else none
  | _ => none

/-- The keys that are remembered, however old. -/
def size (m : Memory) : Nat :=
  m.traces.length

/-- Forgets what is too old, and tells how many keys that were. -/
def purge (m : Memory) (now : Timestamp) : Nat × Memory :=
  let live := m.traces.filter fun (_, t) => m.isLive now t
  (m.size - live.length, { m with traces := live })

end Memory

end KeyedLedger
