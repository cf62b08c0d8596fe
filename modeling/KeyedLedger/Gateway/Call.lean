import KeyedLedger.Broker
import KeyedLedger.Gateway.Routing
import KeyedLedger.Ledger.Error

/-! # Calls

A call publishes a command and waits for its outcome. It runs in steps, between which others may
run: it joins those who wait for its key, publishes the command if it is the first of them, and
ends with the resolution of the key or when its time is up.

Around a call the gateway looks into its memory. A key that it remembers as completed is answered
from there, or refused if the request was of another type. Any other key is published, also one
that is in flight, since the ledger answers a key again that it knows.
-/

namespace KeyedLedger

/-- A command on its way. -/
structure Call where
  topic : String
  key : String
  requestId : String
  requestType : String
  eventType : String
  body : Json

namespace Gateway

variable {κ : Type} [DecidableEq κ]

/-- The gateway with the gauge of waiting keys brought up to date. -/
def gauged (g : Gateway) : Gateway :=
  { g with metrics := g.metrics.set .pending g.waiting.size }

/-- A caller joins those who wait for a key. -/
def join (g : Gateway) (key : String) : Role × Gateway :=
  match g.waiting.join key with
  | (role, waiting) => (role, { g with waiting := waiting }.gauged)

/-- One of those who wait for a key leaves. -/
def leave (g : Gateway) (key : String) : Gateway :=
  { g with waiting := g.waiting.leave key }.gauged

/-- Publishes the command of a call. If the broker does not take it, the key is resolved. -/
def publish (g : Gateway) (broker : Broker κ) (call : Call) (now : Timestamp) :
    Except GatewayError Unit × Gateway × Broker κ :=
  let metadata := Metadata.forRequest call.key call.requestId call.requestType now
  match broker.publish call.topic (.ofJson call.eventType call.body metadata) with
  | (.ok (), broker) =>
    (.ok (), { g with metrics := g.metrics.count (.published call.requestType) }, broker)
  | (.error e, broker) =>
    let reason := s!"command could not be published: {e.message}"
    (.error (.publish e),
      { g with waiting := (g.waiting.resolve call.key (.aborted reason)).2 }, broker)

/-- Starts a call: afterwards its caller waits, unless the command could not be published. -/
def start (g : Gateway) (broker : Broker κ) (call : Call) (now : Timestamp) :
    Except GatewayError Unit × Gateway × Broker κ :=
  match g.join call.key with
  | (.attached, g) => (.ok (), g, broker)
  | (.publisher, g) =>
    match g.publish broker call now with
    | (.ok (), g, broker) => (.ok (), g, broker)
    | (.error e, g, broker) => (.error e, g.leave call.key, broker)

/-- What a waiting caller gets: what its key has been resolved to, else its time is up. -/
def outcome (g : Gateway) (call : Call) (timeout : Span) : Except GatewayError Json × Gateway :=
  match g.waiting.outcome? call.key with
  | some (.completed payload) => (.ok payload, g)
  | some (.rejected rejection) => (.error (.rejected rejection), g)
  | some (.aborted reason) => (.error (.aborted reason), g)
  | none =>
    (.error (.timeout call.key timeout),
      { g with metrics := g.metrics.count (.timedOut call.requestType) })

/-- Ends a call: its caller gets an outcome and leaves. -/
def finish (g : Gateway) (call : Call) (timeout : Span) : Except GatewayError Json × Gateway :=
  match g.outcome call timeout with
  | (result, g) => (result, g.leave call.key)

end Gateway

namespace Memory

/-- The memory after a call has failed. A call whose time is up stays in flight. -/
def afterFailure (m : Memory) (key : String) : GatewayError → Memory
  | .timeout _ _ => m
  | _ => m.clear key

/-- What a memory answers to a request. -/
def answer? (m : Memory) (now : Timestamp) (key : String) (requestType : String) :
    Option (Except ServiceError Json) :=
  (m.completed? now key).map fun completed =>
    if completed.requestType = requestType then .ok completed.payload
    else .error (.validation (LedgerError.keyTakenMessage key completed.requestType))

end Memory

end KeyedLedger
