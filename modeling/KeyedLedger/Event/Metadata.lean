import KeyedLedger.Json.Decoder

/-! # Metadata of an event

Metadata ties an outcome to the request that asked for it. It travels in the headers of a
message, never in its body; an outcome carries the metadata of its command with a time of its
own.
-/

namespace KeyedLedger

/-- What an event says of the request that it belongs to. -/
structure Metadata where
  key : Option String := none
  requestId : Option String := none
  requestType : Option String := none
  timestamp : Option Timestamp := none
deriving DecidableEq, Inhabited

namespace Metadata

/-- The metadata of a request. -/
def forRequest (key requestId requestType : String) (now : Timestamp) : Metadata :=
  ⟨some key, some requestId, some requestType, some now⟩

/-- The metadata with another time. -/
def restamped (m : Metadata) (now : Timestamp) : Metadata :=
  { m with timestamp := some now }

/-- The key under which the two sides meet: the idempotency key, else the request id. -/
def correlationKey? (m : Metadata) : Option String :=
  m.key.or m.requestId

/-! ## Headers -/

/-- The headers, one for each field that is there. -/
def toHeaders (m : Metadata) : List (String × String) :=
  (m.key.map fun s => ("idempotency-key", s)).toList ++
    (m.requestId.map fun s => ("request-id", s)).toList ++
    (m.requestType.map fun s => ("request-type", s)).toList ++
    (m.timestamp.map fun t => ("timestamp", t.toOffsetString)).toList

/-- The metadata once one more header has been read. A time that cannot be read counts as
none. -/
def withHeader (m : Metadata) : String × String → Metadata
  | ("idempotency-key", s) => { m with key := some s }
  | ("request-id", s) => { m with requestId := some s }
  | ("request-type", s) => { m with requestType := some s }
  | ("timestamp", s) => { m with timestamp := Timestamp.readStrict? s }
  | _ => m

/-- The metadata in a list of headers. Of several headers with one name the last counts. -/
def ofHeaders (headers : List (String × String)) : Metadata :=
  headers.foldl withHeader {}

/-! ## JSON -/

/-- The metadata as JSON. -/
def toJson (m : Metadata) : Json :=
  .object [
    ("idempotency_key", .ofOption (m.key.map .string)),
    ("request_id", .ofOption (m.requestId.map .string)),
    ("request_type", .ofOption (m.requestType.map .string)),
    ("timestamp", .ofOption (m.timestamp.map fun t => .string (toString t)))]

/-- The fields of metadata. -/
def shape : Shape Metadata :=
  mk <$> .optional "idempotency_key" .string
    <*> .optional "request_id" .string
    <*> .optional "request_type" .string
    <*> .optional "timestamp" .timestamp

end Metadata

end KeyedLedger
