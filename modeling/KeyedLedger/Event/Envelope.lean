import KeyedLedger.Event.Metadata

/-! # Events

An event is what crosses the broker: the name of its type, a body that is usually JSON, and
metadata. A broker that has headers carries the type in a header of its own in front of the
metadata, and keys the message by the idempotency key or else by the type.
-/

namespace KeyedLedger

/-- A message of the broker. -/
structure Event where
  eventType : String
  body : ByteArray
  metadata : Metadata
deriving Inhabited

/-- Why an event cannot be written or read. -/
inductive EventError where
  | unwritable (detail : String)
  | unreadable (detail : String)
  | unknownType (name : String)
deriving DecidableEq

/-- What is said of an event that cannot be written or read. -/
def EventError.message : EventError → String
  | unwritable detail => s!"Failed to serialize event: {detail}"
  | unreadable detail => s!"Failed to deserialize event: {detail}"
  | unknownType name => s!"Unknown event type: {name}"

/-- Why the broker does not deliver. -/
inductive BrokerError where
  | connectionFailed (detail : String)
  | publishFailed (topic reason : String)
  | subscriptionFailed (topics : List String) (reason : String)
  | undecodable (detail : String)
  | transport (detail : String)
deriving DecidableEq

namespace BrokerError

/-- A character of a quoted topic. -/
def quoteChar (c : Char) : List Char :=
  if c = '"' then ['\\', '"']
  else if c = '\\' then ['\\', '\\']
  else if c = '\n' then ['\\', 'n']
  else if c = '\r' then ['\\', 'r']
  else if c = '\t' then ['\\', 't']
  else if c = '\x00' then ['\\', '0']
  else if c.toNat < 32 ∨ (127 ≤ c.toNat ∧ c.toNat < 160) then
    ['\\', 'u', '\x7b'] ++ Nat.toDigits 16 c.toNat ++ ['\x7d']
  else [c]

/-- A topic in quotes. -/
def quoted (topic : String) : String :=
  String.ofList ('"' :: topic.toList.flatMap quoteChar ++ ['"'])

/-- What is said of a failure of the broker. -/
def message : BrokerError → String
  | connectionFailed detail => s!"Connection failed: {detail}"
  | publishFailed topic reason => s!"Publish failed for topic '{topic}': {reason}"
  | subscriptionFailed topics reason =>
    s!"Subscription failed for topics [" ++ ", ".intercalate (topics.map quoted) ++ s!"]: {reason}"
  | undecodable detail => s!"Deserialization failed: {detail}"
  | transport detail => s!"Transport error: {detail}"

/-- The refusal to connect to a broker that is not configured. -/
def noBrokers : BrokerError :=
  connectionFailed "Brokers not configured"

end BrokerError

namespace Event

/-- The event with a JSON body. -/
def ofJson (eventType : String) (body : Json) (metadata : Metadata) : Event where
  eventType := eventType
  body := body.render.toUTF8
  metadata := metadata

/-- What the body says. -/
def decode {α : Type} (e : Event) (d : Decoder α) : Except EventError α :=
  match d.ofBytes e.body with
  | .ok a => .ok a
  | .error fault => .error (.unreadable fault.message)

/-- The event as JSON. A body that is no JSON shows as null. -/
def toJson (e : Event) : Json :=
  .object [
    ("event_type", .string e.eventType),
    ("data", .ofOption (Document.ofBytes e.body).toJson?),
    ("metadata", e.metadata.toJson)]

/-- The event in one line of a log. -/
def summary (e : Event) : String :=
  let key := e.metadata.correlationKey?.getD "-"
  "SerializedEvent \x7b type: " ++ e.eventType ++ ", key: " ++ key ++ ", size: " ++
    toString e.body.size ++ " bytes \x7d"

/-! ## Broker messages -/

/-- The headers of the message: the type, then the metadata. -/
def toHeaders (e : Event) : List (String × String) :=
  ("event-type", e.eventType) :: e.metadata.toHeaders

/-- The key by which the broker keeps messages in order. -/
def partitionKey (e : Event) : String :=
  e.metadata.key.getD e.eventType

/-- The event in a broker message. The first header with the type counts. -/
def ofMessage (payload : Option ByteArray) (headers : List (String × String)) :
    Except BrokerError Event :=
  match payload, headers.lookup "event-type" with
  | none, _ => .error (.undecodable "Message has no payload")
  | some _, none => .error (.undecodable "Message has no 'event-type' header")
  | some body, some eventType => .ok ⟨eventType, body, .ofHeaders headers⟩

end Event

end KeyedLedger
