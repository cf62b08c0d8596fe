import KeyedLedger.Broker
import KeyedLedger.Ledger.Engine
import KeyedLedger.Message.Topics
import KeyedLedger.Metrics

/-! # Verdicts

A command message is answered by exactly one outcome, on the topic of its domain for what was
completed or for what failed. The outcome carries the metadata of the command, so that whoever
asked can tell what it answers. A command that has been applied before is answered again with
the recorded result.

A message without a key, or of a type that is no command, gets no answer.
-/

namespace KeyedLedger

/-- Why a message gets no answer. -/
inductive VerdictError where
  | uncorrelated (eventType : String)
  | unknownCommand (eventType : String)
  | unwritable (detail : String)
  | publish (error : BrokerError)
deriving DecidableEq

/-- What is said of a message that gets no answer. -/
def VerdictError.message : VerdictError → String
  | uncorrelated eventType => s!"{eventType} carries no correlation key"
  | unknownCommand eventType => s!"Unknown command type {eventType}"
  | unwritable detail => s!"Outcome serialization failed: {detail}"
  | publish error => s!"Outcome publish failed: {error.message}"

/-- The answer to a command: an event on a topic, and what is to be counted. -/
structure Verdict where
  topic : String
  event : Event
  counted : List Series

namespace Verdict

/-- The answer to a command that was applied. -/
def completed (topic eventType : String) (body : Json) (metadata : Metadata)
    (counted : List Series) : Verdict :=
  ⟨topic, .ofJson eventType body metadata, counted⟩

/-- The answer to a command that was refused. -/
def refused (topic : String) (error : LedgerError) (metadata : Metadata) (now : Timestamp) :
    Verdict :=
  let news : Rejection := ⟨error.code, error.message, metadata.requestId, now⟩
  ⟨topic, .ofJson Rejection.eventType news.toJson metadata, [.rejected error.code]⟩

end Verdict

/-- A command as its text gives it, or the refusal of a text that cannot be read. -/
def Event.command {α : Type} (e : Event) (shape : Shape α) : Except LedgerError α :=
  match e.decode shape.decoder with
  | .ok command => .ok command
  | .error error => .error (.unreadable error)

namespace Store

/-- Carries out a command, unless its text cannot be read. -/
def carryOut {α β : Type} (s : Store) (command : Except LedgerError α)
    (run : α → Except LedgerError β × Store) : Except LedgerError (α × β) × Store :=
  match command with
  | .error error => (.error error, s)
  | .ok command =>
    match run command with
    | (.ok answer, s) => (.ok (command, answer), s)
    | (.error error, s) => (.error error, s)

/-- The verdict on a message under its key. -/
def decide (s : Store) (topics : Topics) (event : Event) (key : String) (now : Timestamp)
    (draw : Draw) : Except VerdictError Verdict × Store :=
  let metadata := event.metadata.restamped now
  if event.eventType = OpenAccount.eventType then
    match s.carryOut (event.command OpenAccount.shape) fun c => s.openAccount c key now draw with
    | (.ok (_, answer), s) =>
      (.ok (.completed topics.accountCompleted Account.eventType answer.value.toOutcome metadata []), s)
    | (.error error, s) => (.ok (.refused topics.accountFailed error metadata now), s)
  else if event.eventType = ApplyTransaction.eventType then
    match s.carryOut (event.command ApplyTransaction.shape) fun c =>
      s.applyTransaction c key now draw with
    | (.ok (command, answer), s) =>
      (.ok (.completed topics.transactionCompleted Applied.eventType answer.value.toJson metadata
        (if answer.replayed then [] else [.applied command.direction])), s)
    | (.error error, s) => (.ok (.refused topics.transactionFailed error metadata now), s)
  else (.error (.unknownCommand event.eventType), s)

/-- The verdict on a message. -/
def answer (s : Store) (topics : Topics) (event : Event) (now : Timestamp) (draw : Draw) :
    Except VerdictError Verdict × Store :=
  match event.metadata.correlationKey? with
  | none => (.error (.uncorrelated event.eventType), s)
  | some key => s.decide topics event key now draw

end Store

/-- The ledger as it answers messages, with what it has counted. -/
structure Backend where
  store : Store := {}
  metrics : Metrics := {}

namespace Backend

instance : Inhabited Backend := ⟨{}⟩

variable {κ : Type} [DecidableEq κ]

/-- Answers a message on a broker. -/
def process (b : Backend) (broker : Broker κ) (topics : Topics) (event : Event) (now : Timestamp)
    (draw : Draw) : Except VerdictError Unit × Backend × Broker κ :=
  match b.store.answer topics event now draw with
  | (.error error, store) => (.error error, { b with store := store }, broker)
  | (.ok verdict, store) =>
    let after : Backend := ⟨store, b.metrics.countAll verdict.counted⟩
    match broker.publish verdict.topic verdict.event with
    | (.ok (), broker) => (.ok (), after, broker)
    | (.error error, broker) => (.error (.publish error), after, broker)

end Backend

end KeyedLedger
