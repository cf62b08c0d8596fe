import KeyedLedger.Feed
import KeyedLedger.Gateway.Error
import KeyedLedger.Gateway.Memory
import KeyedLedger.Gateway.Waiting
import KeyedLedger.Metrics
import KeyedLedger.Service.View

/-! # Routing outcomes

A gateway takes each outcome of a domain to those who want it: it remembers an answer under its
key, resolves the key for whoever waits, and publishes the outcome on the live feed. An outcome
that nobody waits for is remembered and published all the same, and counted.

An outcome without a key, of a type that does not belong to the domain, or with a body that does
not decode changes nothing.
-/

namespace KeyedLedger

namespace RequestType

/-- The domain of the requests. -/
def domain : RequestType → String
  | openAccount => "accounts"
  | applyTransaction => "transactions"

/-- The type of the events that answer them. -/
def answerType : RequestType → String
  | openAccount => Account.eventType
  | applyTransaction => Applied.eventType

/-- The topic of the live feed on which their outcomes appear. -/
def feedTopic : RequestType → String
  | openAccount => "/topic/accounts"
  | applyTransaction => "/topic/transactions"

/-- The requests of a domain. -/
def ofDomain? : String → Option RequestType
  | "accounts" => some openAccount
  | "transactions" => some applyTransaction
  | _ => none

/-- What the outcome of a request shows to its caller, the members in order. -/
def payload (type : RequestType) (event : Event) : Except EventError Json :=
  match type with
  | openAccount => do
    let account ← event.decode Account.outcomeShape.decoder
    return (AccountView.ofAccount account).toJson.sorted
  | applyTransaction => do
    let applied ← event.decode Applied.shape.decoder
    return (TransactionView.ofApplied applied).toJson.sorted

end RequestType

/-- What the live feed shows of a rejection. -/
def Rejection.toFeed (r : Rejection) (key : String) : Json :=
  .object [
    ("errorCode", .string r.code.code),
    ("errorMessage", .string r.reason),
    ("idempotencyKey", .string key),
    ("requestId", .ofOption (r.requestId.map .string)),
    ("status", .string Status.failed.code),
    ("timestamp", .string (toString r.timestamp))]

/-- A gateway: who waits, what is remembered, who listens, and what has been counted. -/
structure Gateway where
  waiting : Waiting := {}
  memory : Memory
  feed : Feed := {}
  metrics : Metrics := {}

namespace Gateway

/-- An outcome under its key, as it is wanted. -/
inductive Outcome where
  | answer (payload : Json)
  | rejection (rejection : Rejection)

/-- The outcome that an event of a domain carries. -/
def readOutcome (type : RequestType) (event : Event) : Except GatewayError Outcome :=
  if event.eventType = type.answerType then
    match type.payload event with
    | .ok payload => .ok (.answer payload)
    | .error e => .error (.malformed e.message)
  else if event.eventType = Rejection.eventType then
    match event.decode Rejection.shape.decoder with
    | .ok rejection => .ok (.rejection rejection)
    | .error e => .error (.malformed e.message)
  else .error (.malformed s!"unexpected event type {event.eventType} on {type.domain} outcomes")

/-- Those who wait, once a key has been resolved; a key that nobody waits for is counted. -/
def resolve (g : Gateway) (type : RequestType) (key : String) (resolution : Resolution) :
    Gateway :=
  match g.waiting.resolve key resolution with
  | (true, waiting) => { g with waiting := waiting }
  | (false, waiting) =>
    { g with waiting := waiting, metrics := g.metrics.count (.uncorrelated type.domain) }

/-- Takes an outcome under its key to those who want it. -/
def deliver (g : Gateway) (type : RequestType) (key : String) (outcome : Outcome)
    (now : Timestamp) : Gateway :=
  match outcome with
  | .answer payload =>
    let g := { g with memory := g.memory.markCompleted now key ⟨type.code, payload⟩ }
    let g := g.resolve type key (.completed payload)
    { g with feed := (g.feed.publish type.feedTopic payload).2 }
  | .rejection rejection =>
    let g := { g with memory := g.memory.clear key }
    let g := g.resolve type key (.rejected rejection)
    { g with feed := (g.feed.publish type.feedTopic (rejection.toFeed key)).2 }

/-- Takes an event of a domain to those who want it. -/
def route (g : Gateway) (type : RequestType) (event : Event) (now : Timestamp) :
    Except GatewayError Unit × Gateway :=
  match event.metadata.correlationKey? with
  | none =>
    (.error (.malformed s!"{event.eventType} carries no idempotency key or request id"),
      { g with metrics := g.metrics.count (.uncorrelated type.domain) })
  | some key =>
    match readOutcome type event with
    | .ok outcome => (.ok (), g.deliver type key outcome now)
    | .error e => (.error e, g)

end Gateway

end KeyedLedger
