import KeyedLedger.Gateway.Error

/-! # Problems

What goes wrong with a request over HTTP is told by a status and a small document: a code, a
message, and the trace identifier of the request. What the program itself got wrong is not told; the
message is then the same whatever the reason, which is kept apart as the source.
-/

namespace KeyedLedger.Http

/-- What goes wrong with a request. -/
structure Problem where
  status : Nat
  message : String
  code : String
  trace : Option Identifier := none
  source : Option String := none
deriving DecidableEq

namespace Problem

/-- The request is not right. -/
def badRequest (message : String) : Problem :=
  ⟨400, message, "BAD_REQUEST", none, none⟩

/-- What is asked for is not there. -/
def notFound (message : String) : Problem :=
  ⟨404, message, "NOT_FOUND", none, none⟩

/-- The request collides with another one. -/
def conflict (message : String) : Problem :=
  ⟨409, message, "CONFLICT", none, none⟩

/-- A rule of the domain forbids what is asked for. -/
def unprocessable (message : String) : Problem :=
  ⟨422, message, "UNPROCESSABLE_ENTITY", none, none⟩

/-- The program has failed. -/
def internal (message : String) : Problem :=
  ⟨500, message, "INTERNAL_SERVER_ERROR", none, none⟩

/-- The program behind this one has not answered in time. -/
def gatewayTimeout (message : String) : Problem :=
  ⟨504, message, "GATEWAY_TIMEOUT", none, none⟩

/-- What is told of a failure whose reason is not told. -/
def concealed : String :=
  "An internal error occurred"

/-- The failure for a reason that is not told. -/
def ofSource (reason : String) : Problem :=
  { internal concealed with source := some reason }

/-- The problem with another code. -/
def withCode (p : Problem) (code : String) : Problem :=
  { p with code := code }

/-- The problem with the trace identifier of its request. -/
def withTrace (p : Problem) (trace : Identifier) : Problem :=
  { p with trace := some trace }

/-- The problem for what a caller of the service is told. -/
def ofService (e : ServiceError) : Problem :=
  let problem := match e with
    | .validation m => badRequest m
    | .accountNotFound m => notFound m
    | .currencyNotFound m => notFound m
    | .insufficientFunds m => unprocessable m
    | .business _ m => conflict m
    | .timeout m => gatewayTimeout m
    | .internal m => ofSource m
  problem.withCode e.code

/-- The problem for what a caller of the service is told, with the trace identifier of its request.
-/
def forRequest (trace : Identifier) (e : ServiceError) : Problem :=
  (ofService e).withTrace trace

/-- The problem in one line of a log. -/
def line (p : Problem) : String :=
  s!"[{p.code}] {p.message}"

/-- The document that tells of the problem under some identifier. -/
def under (p : Problem) (trace : Identifier) : Json :=
  .object [
    ("code", .string p.code),
    ("message", .string p.message),
    ("traceId", .string (toString trace))]

/-- The document that a client is sent. A problem without a trace identifier gets a fresh one. -/
def document (p : Problem) (fresh : Identifier) : Json :=
  p.under (p.trace.getD fresh)

end Problem

end KeyedLedger.Http
