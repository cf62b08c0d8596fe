import KeyedLedger.Http.Header

/-! # Requests and responses

A response repeats the trace identifier of its request. Its body is a document, or a line of text
where a request is turned away before it is understood, or empty.
-/

namespace KeyedLedger.Http

/-- A request. -/
structure Request where
  method : String
  target : String
  headers : Headers
  body : ByteArray

/-- A request as it reaches a handler, with the trace identifier that it has been given on its way,
if it has. -/
structure Received where
  request : Request
  given : Option Identifier

/-- The trace identifier by which a handler knows a request: the one that it has been given, or else
the one that it carries. -/
def Received.trace? (r : Received) : Option Identifier :=
  r.given <|> r.request.headers.trace?

/-- The body of a response. -/
inductive Body where
  | empty
  | document (json : Json)
  | text (line : String)

/-- A response, without the trace identifier that every response carries. -/
structure Response where
  status : Nat
  contentType : Option String
  body : Body

namespace Response

/-- A response without a body. -/
def empty (status : Nat) : Response :=
  ⟨status, none, .empty⟩

/-- A response with a document. -/
def document (status : Nat) (json : Json) : Response :=
  ⟨status, some "application/json", .document json⟩

/-- The response to a request that is not understood. -/
def text (status : Nat) (line : String) : Response :=
  ⟨status, some "text/plain; charset=utf-8", .text line⟩

/-- The response that tells of a problem with a request. -/
def problem (p : Problem) (fresh : Identifier) : Response :=
  document p.status (p.document fresh)

/-- The response without its body. -/
def head (r : Response) : Response :=
  { r with body := .empty }

end Response

/-- A response with the trace identifier of its request. -/
structure Traced where
  trace : Identifier
  response : Response

end KeyedLedger.Http
