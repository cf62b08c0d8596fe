import KeyedLedger.Http.MediaType
import KeyedLedger.Http.Message
import KeyedLedger.Http.Resource
import KeyedLedger.Bank.Service

/-! # The interface over HTTP

A request is given a trace identifier, its own one or a fresh one, and its response carries it. A
handler reads the identifier off the request once more, and attaches it to the problems that it
meets; a problem without one is told under a fresh identifier. A command goes out under its
idempotency key and with the trace identifier as the name of the request. The key is checked before
the type of the body and the body itself, and nothing is sent unless all three are right.

A body that is no JSON is told apart from JSON of the wrong form. Text behind the JSON value is
passed over.
-/

namespace KeyedLedger

namespace Http

/-- The part of a body that makes up a value, or the answer to a body without one. -/
def readBody {α : Type} (r : Request) (shape : Shape α) : Except Response α :=
  if ((r.headers.readable? "Content-Type").bind MediaType.read?).any MediaType.isJson then
    match shape.decoder (Document.ofBytes r.body).root with
    | .ok a => .ok a
    | .error .malformed => .error (.text 400 "The body is not JSON")
    | .error fault => .error (.text 422 s!"The body does not describe a request: {fault.message}")
  else .error (.text 415 "The body must have a JSON content type")

/-- The answer to a request for the live feed that is no handshake, or one that cannot be
completed here. -/
def upgrade (r : Request) : Response :=
  let h := r.headers
  if r.method ≠ "GET" then .text 405 "The live feed must be opened with GET"
  else if (h.first? "Connection").any (fun v => ((Text.lower v).splitOn "upgrade").length > 1) ∧
      (h.first? "Upgrade").any (fun v => Text.sameIgnoringCase v "websocket") ∧
      h.first? "Sec-WebSocket-Version" = some "13" ∧
      (h.first? "Sec-WebSocket-Key").isSome then
    .text 426 "The connection cannot be upgraded"
  else .text 400 "The live feed takes a handshake only"

/-- What tells that the program is up. -/
def health : Json :=
  .object [("status", .string "ok"), ("version", .string "0.1.0")]

end Http

namespace Bank

open Http

/-- Tells of a problem, under a fresh identifier if it has none. -/
def tell (s : Bank) (p : Problem) : Response × Bank :=
  (.problem p s.fresh.1, if p.trace.isSome then s else s.fresh.2)

/-- Shows a caller what a handler has come to, or tells of the problem. -/
def present {α : Type} (s : Bank) (status : Nat) (toJson : α → Json) :
    Except Problem α → Response × Bank
  | .ok a => (.document status (toJson a), s)
  | .error p => s.tell p

/-- The trace identifier by which a handler knows a request, a fresh one if there is none. -/
def traceOf (s : Bank) (r : Received) : Identifier × Bank :=
  match r.trace? with
  | some trace => (trace, s)
  | none => s.fresh

/-- Answers a command. -/
def answerOrder {α : Type} (s : Bank) (r : Received) (shape : Shape α) (order : α → Order) :
    Response × Bank :=
  match s.traceOf r with
  | (trace, s) =>
    match RequestKey.ofHeaders r.request.headers r.given s.fresh.1 with
    | .error p => s.fresh.2.tell p
    | .ok key =>
      match readBody r.request shape with
      | .error response => (response, s.fresh.2)
      | .ok request =>
        match s.fresh.2.execute (order request) key.value (toString trace) with
        | (result, s) => s.present 201 Reply.toJson (result.mapError (.forRequest trace))

/-- Answers a request to read something of the account in a segment of its path. -/
def answerRead {α : Type} (s : Bank) (r : Received) (segment : String)
    (read : Bank → String → Except ServiceError α × Bank) (toJson : α → Json) : Response × Bank :=
  match s.traceOf r with
  | (trace, s) =>
    match Path.decode? segment with
    | none => (.text 400 "The path is not encoded text", s)
    | some id =>
      match read s id with
      | (result, s) => s.present 200 toJson (result.mapError (.forRequest trace))

/-- Answers a request for a resource with one of its methods. -/
def answerFor (s : Bank) (r : Received) : Resource → Response × Bank
  | .accounts => s.answerOrder r AccountRequest.shape .openAccount
  | .transactions => s.answerOrder r TransactionRequest.shape .applyTransaction
  | .account segment => s.answerRead r segment account AccountView.toJson
  | .accountTransactions segment =>
    s.answerRead r segment transactions fun ts => .array (ts.map TransactionView.toJson)
  | .health => (.document 200 health, s)
  | .feed => (upgrade r.request, s)

/-- The trace identifier that a request is given: its own one, or a fresh one. -/
def traced (s : Bank) (r : Request) : Identifier × Bank :=
  match r.headers.trace? with
  | some trace => (trace, s)
  | none => s.fresh

/-- Answers a request. -/
def respond (s : Bank) (r : Request) : Traced × Bank :=
  match s.traced r with
  | (trace, s) =>
    match Resource.ofTarget? r.target with
    | none => (⟨trace, .empty 404⟩, s)
    | some resource =>
      if r.method ∈ resource.methods then
        match s.answerFor ⟨r, some trace⟩ resource with
        | (response, s) =>
          (⟨trace, if r.method = "HEAD" then response.head else response⟩, s)
      else (⟨trace, .empty 405⟩, s)

end Bank

end KeyedLedger
