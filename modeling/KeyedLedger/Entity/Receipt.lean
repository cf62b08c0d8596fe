import KeyedLedger.Json.Decoder

/-! # Receipts

A receipt records under its key that a request has been carried out, of which type it was,
and with which result. The result is kept as JSON, the members of every object in order.
-/

namespace KeyedLedger

/-- What is kept of a request that has been carried out. -/
structure Receipt where
  key : String
  requestType : String
  processedAt : Timestamp
  result : Json

namespace Receipt

/-- The receipt as JSON. -/
def toJson (r : Receipt) : Json :=
  .object [
    ("message_id", .string r.key),
    ("message_type", .string r.requestType),
    ("processed_at", .string (toString r.processedAt)),
    ("result", r.result)]

/-- The fields of a receipt. -/
def shape : Shape Receipt :=
  mk <$> .field "message_id" .string
    <*> .field "message_type" .string
    <*> .field "processed_at" .timestamp
    <*> .field "result" (.json (Document.maxDepth - 1))

end Receipt

end KeyedLedger
