import KeyedLedger.Proofs.Ledger.Verdict

/-! # One outcome for each command

A message that has a key and the type of a command is answered by one event, whatever is stored and
wherever the store fails. The event appears on the topic for what was completed if the command can
be read and is carried out, and else on the topic for what failed, and it belongs to the request
that the command belongs to. Any other message is answered by nothing and changes nothing.
-/

namespace KeyedLedger

/-- The type of the events that carry the commands of a type of request. -/
def RequestType.commandType : RequestType → String
  | openAccount => OpenAccount.eventType
  | applyTransaction => ApplyTransaction.eventType

namespace Topics

/-- The topic for the requests of a type that were completed. -/
def completedOf (t : Topics) : RequestType → String
  | .openAccount => t.accountCompleted
  | .applyTransaction => t.transactionCompleted

/-- The topic for the requests of a type that failed. -/
def failedOf (t : Topics) : RequestType → String
  | .openAccount => t.accountFailed
  | .applyTransaction => t.transactionFailed

/-- The topic for what a request of a type comes to. -/
def topicOf (t : Topics) (type : RequestType) : Except LedgerError Result → String
  | .ok _ => t.completedOf type
  | .error _ => t.failedOf type

theorem topicOf_mem (t : Topics) (type : RequestType) (result : Except LedgerError Result) :
    t.topicOf type result ∈ t.outcomesOf type := by
  cases result <;> cases type <;>
    simp [topicOf, completedOf, failedOf, outcomesOf, accountOutcomes, transactionOutcomes]

end Topics

/-- A value as the body of the event that tells of it. -/
def Result.toOutcome : Result → Json
  | opened a => a.toOutcome
  | applied a => a.toJson

/-- The news that a request is refused. -/
def LedgerError.rejection (error : LedgerError) (requestId : Option String) (now : Timestamp) :
    Rejection :=
  ⟨error.code, error.message, requestId, now⟩

namespace Event

/-- The command of a type of request that an event carries, or the refusal of what cannot be
read. -/
def readCommand (e : Event) : RequestType → Except LedgerError Command
  | .openAccount => (e.command OpenAccount.shape).map .openAccount
  | .applyTransaction => (e.command ApplyTransaction.shape).map .applyTransaction

/-- The event that tells what a request has come to. -/
def ofResult (m : Metadata) (now : Timestamp) : Except LedgerError Result → Event
  | .ok v => .ofJson v.type.answerType v.toOutcome (m.restamped now)
  | .error error =>
    .ofJson Rejection.eventType (error.rejection m.requestId now).toJson (m.restamped now)

/-- A gateway reads such an event as what the request has come to. -/
theorem ofResult_tells {m : Metadata} {key : String} {now : Timestamp} {type : RequestType}
    {result : Except LedgerError Result} (hm : m.correlationKey? = some key)
    (hnow : Timestamp.yearInRange now.date.year = true)
    (hvalue : ∀ v, result = .ok v → v.Legible ∧ v.type = type) :
    (ofResult m now result).Tells type key (.ofResult m.requestId now result) := by
  refine ⟨?_, ?_⟩
  · cases result <;> exact hm
  · cases result with
    | error error => exact Gateway.readOutcome_rejection type hnow _
    | ok v =>
        obtain ⟨hlegible, rfl⟩ := hvalue v rfl
        cases v with
        | opened a => exact Gateway.readOutcome_account hlegible _
        | applied a => exact Gateway.readOutcome_applied hlegible.1 hlegible.2 _

/-- A message is a command of one of the types of request, or of none. -/
theorem command_or_other (e : Event) : (∃ type : RequestType, e.eventType = type.commandType) ∨
    ∀ type : RequestType, e.eventType ≠ type.commandType := by
  rw [← not_exists]
  exact Classical.em _

theorem type_of_readCommand {e : Event} {type : RequestType} {c : Command}
    (h : e.readCommand type = .ok c) : c.type = type := by
  cases type with
  | openAccount =>
      obtain ⟨_, -, rfl⟩ := map_ok h
      rfl
  | applyTransaction =>
      obtain ⟨_, -, rfl⟩ := map_ok h
      rfl

/-- The event of a command is read as that command. -/
theorem readCommand_event {c : Command} (hc : c.Legible) (m : Metadata) :
    (c.event m).readCommand c.type = .ok c := by
  cases c with
  | openAccount c =>
      have hread := Event.decode_ofJson c.whole c.reads OpenAccount.eventType m
      rw [Command.type, readCommand, command, Command.event, Command.eventType, Command.toJson,
        hread]
      rfl
  | applyTransaction c =>
      have hread := Event.decode_ofJson c.whole (ApplyTransaction.reads hc)
        ApplyTransaction.eventType m
      rw [Command.type, readCommand, command, Command.event, Command.eventType, Command.toJson,
        hread]
      rfl

end Event

namespace Store

/-- The store carries out a command. -/
def perform (s : Store) (c : Command) (key : String) (now : Timestamp) (draw : Draw) :
    Except LedgerError Result × Store :=
  match c with
  | .openAccount c =>
    let (result, s) := s.openAccount c key now draw
    (result.map fun a => .opened a.value, s)
  | .applyTransaction c =>
    let (result, s) := s.applyTransaction c key now draw
    (result.map fun a => .applied a.value, s)

theorem perform_disturbances (s : Store) (c : Command) (key : String) (now : Timestamp)
    (draw : Draw) : (s.perform c key now draw).2.disturbances = s.disturbances := by
  cases c with
  | openAccount c => exact s.openAccount_disturbances c key now draw
  | applyTransaction c => exact s.applyTransaction_disturbances c key now draw

/-- What a message comes to as a command of a type of request. One that cannot be read does not
reach the store. -/
def comesTo (s : Store) (type : RequestType) (e : Event) (key : String) (now : Timestamp)
    (draw : Draw) : Except LedgerError Result × Store :=
  match e.readCommand type with
  | .ok c => s.perform c key now draw
  | .error error => (.error error, s)

variable {s : Store} {e : Event} {type : RequestType} {key : String} {now : Timestamp}
  {draw : Draw}

theorem type_of_perform {c : Command} {v : Result} (h : (s.perform c key now draw).1 = .ok v) :
    v.type = c.type := by
  cases c with
  | openAccount c =>
      obtain ⟨_, -, rfl⟩ := map_ok h
      rfl
  | applyTransaction c =>
      obtain ⟨_, -, rfl⟩ := map_ok h
      rfl

theorem type_of_comesTo {v : Result} (h : (s.comesTo type e key now draw).1 = .ok v) :
    v.type = type := by
  rw [comesTo] at h
  cases hread : e.readCommand type with
  | error error =>
      rw [hread] at h
      cases h
  | ok c =>
      rw [hread] at h
      exact (type_of_perform h).trans (Event.type_of_readCommand hread)

/-- A store that follows an instruction comes to what the ledger in it answers. -/
theorem Follows.perform {i : Instruction} (h : s.Follows i) :
    (s.perform i.command i.key i.now i.draw).1 = (s.ledger.serve i).1.outcome ∧
      (s.perform i.command i.key i.now i.draw).2.ledger = (s.ledger.serve i).2 := by
  rcases i with ⟨c | c, key, now, draw, d⟩ <;> rw [Follows] at h <;> rw [h] <;> exact ⟨rfl, rfl⟩

/-- The verdict on a command is what the command comes to. -/
theorem answer_command (s : Store) (t : Topics) (now : Timestamp) (draw : Draw)
    (hkey : e.metadata.correlationKey? = some key) (htype : e.eventType = type.commandType) :
    ∃ counted, s.answer t e now draw =
      (.ok ⟨t.topicOf type (s.comesTo type e key now draw).1,
        .ofResult e.metadata now (s.comesTo type e key now draw).1, counted⟩,
      (s.comesTo type e key now draw).2) := by
  rw [answer, hkey]
  cases type with
  | openAccount =>
      have hopen : e.eventType = OpenAccount.eventType := htype
      simp only [decide, if_pos hopen, comesTo, Event.readCommand, carryOut]
      cases e.command OpenAccount.shape with
      | error error => exact ⟨_, rfl⟩
      | ok c =>
          simp only [Except.map, perform]
          rcases s.openAccount c key now draw with ⟨_ | _, _⟩ <;> exact ⟨_, rfl⟩
  | applyTransaction =>
      have happly : e.eventType = ApplyTransaction.eventType := htype
      have hopen : e.eventType ≠ OpenAccount.eventType := by
        rw [happly]
        decide
      simp only [decide, if_neg hopen, if_pos happly, comesTo, Event.readCommand, carryOut]
      cases e.command ApplyTransaction.shape with
      | error error => exact ⟨_, rfl⟩
      | ok c =>
          simp only [Except.map, perform]
          rcases s.applyTransaction c key now draw with ⟨_ | _, _⟩ <;> exact ⟨_, rfl⟩

/-- The event of a command is answered by what the command comes to when it is carried out. -/
theorem answer_event {m : Metadata} {d : Disturbances} (hcents : s.ledger.InCents)
    (hwritten : s.ledger.Written) (t : Topics) {c : Command} (hc : c.Legible)
    (hserve : s.Follows ⟨c, key, now, draw, d⟩) (hm : m.correlationKey? = some key)
    (hnow : Timestamp.yearInRange now.date.year = true) :
    s.Judges t ⟨c, key, now, draw, d⟩ m.requestId (s.answer t (c.event m) now draw) := by
  have hkey : (c.event m).metadata.correlationKey? = some key := hm
  have htype : (c.event m).eventType = c.type.commandType := by
    cases c <;> rfl
  obtain ⟨counted, hanswer⟩ := s.answer_command t now draw hkey htype
  obtain ⟨houtcome, hledger⟩ := hserve.perform
  rw [comesTo, Event.readCommand_event hc, houtcome] at hanswer
  refine ⟨_, _, hanswer, s.perform_disturbances c key now draw, hledger, t.topicOf_mem _ _,
    Event.ofResult_tells hm hnow ?_⟩
  intro v hv
  exact ⟨hwritten.legible hcents hnow hv, (Ledger.records_of_outcome hcents hnow hv).2⟩

theorem answer_uncorrelated (s : Store) (t : Topics) (now : Timestamp) (draw : Draw)
    (hkey : e.metadata.correlationKey? = none) :
    s.answer t e now draw = (.error (.uncorrelated e.eventType), s) := by
  rw [answer, hkey]

theorem answer_unknown (s : Store) (t : Topics) (now : Timestamp) (draw : Draw)
    (hkey : e.metadata.correlationKey? = some key)
    (hother : ∀ type : RequestType, e.eventType ≠ type.commandType) :
    s.answer t e now draw = (.error (.unknownCommand e.eventType), s) := by
  have hopen : e.eventType ≠ OpenAccount.eventType := hother .openAccount
  have happly : e.eventType ≠ ApplyTransaction.eventType := hother .applyTransaction
  rw [answer, hkey]
  simp only [decide, if_neg hopen, if_neg happly]

end Store

/-- An event on a topic answers a message with what the message has come to. -/
structure Event.Answers (answer : Event) (topic : String) (t : Topics) (type : RequestType)
    (e : Event) (now : Timestamp) (result : Except LedgerError Result) : Prop where
  /-- A value is told on the topic for what was completed, -/
  completed : ∀ v, result = .ok v → v.type = type ∧ topic = t.completedOf type ∧
    answer.eventType = type.answerType ∧ answer.body = v.toOutcome.render.toUTF8
  /-- and an error on the one for what failed, by its code and its wording. -/
  failed : ∀ error, result = .error error → topic = t.failedOf type ∧
    answer.eventType = Rejection.eventType ∧
    answer.body =
      (Rejection.mk error.code error.message e.metadata.requestId now).toJson.render.toUTF8
  key : answer.metadata.key = e.metadata.key
  requestId : answer.metadata.requestId = e.metadata.requestId
  requestType : answer.metadata.requestType = e.metadata.requestType

namespace Event.Answers

variable {answer e : Event} {topic : String} {t : Topics} {type : RequestType} {now : Timestamp}
  {result : Except LedgerError Result}

theorem correlationKey? (h : answer.Answers topic t type e now result) :
    answer.metadata.correlationKey? = e.metadata.correlationKey? := by
  rw [Metadata.correlationKey?, Metadata.correlationKey?, h.key, h.requestId]

end Event.Answers

theorem Event.answers_ofResult (t : Topics) {type : RequestType} (e : Event) (now : Timestamp)
    {result : Except LedgerError Result} (htype : ∀ v, result = .ok v → v.type = type) :
    (Event.ofResult e.metadata now result).Answers (t.topicOf type result) t type e now result := by
  cases result with
  | ok v =>
      obtain rfl := htype v rfl
      refine ⟨?_, fun _ h => (by cases h), rfl, rfl, rfl⟩
      intro w hw
      cases hw
      exact ⟨rfl, rfl, rfl, rfl⟩
  | error error =>
      refine ⟨fun _ h => (by cases h), ?_, rfl, rfl, rfl⟩
      intro error' herror
      cases herror
      exact ⟨rfl, rfl, by rw [Event.ofResult, Event.ofJson, LedgerError.rejection]⟩

theorem Broker.publish_reachable {κ : Type} {b : Broker κ} (h : b.reachable = true)
    (topic : String) (e : Event) :
    (b.publish topic e).1 = .ok () ∧ (b.publish topic e).2.reachable = true ∧
      (b.publish topic e).2.record = b.record ++ [(topic, e)] := by
  rw [publish, if_pos h]
  exact ⟨rfl, h, rfl⟩

namespace Backend

variable {κ : Type} [DecidableEq κ] {e : Event} {type : RequestType} {key : String}

omit [DecidableEq κ] in
/-- A command is answered on the broker by what it comes to. What it has come to stays even if the
broker does not take the answer. -/
theorem process_command {b : Backend} {broker broker' : Broker κ} {t : Topics} {now : Timestamp}
    {draw : Draw} {result : Except LedgerError Result} {store : Store}
    {taken : Except BrokerError Unit} (hkey : e.metadata.correlationKey? = some key)
    (htype : e.eventType = type.commandType)
    (hcomes : b.store.comesTo type e key now draw = (result, store))
    (htold : broker.publish (t.topicOf type result) (.ofResult e.metadata now result) =
      (taken, broker')) :
    ∃ counted, b.process broker t e now draw =
      (taken.mapError .publish, ⟨store, b.metrics.countAll counted⟩, broker') := by
  obtain ⟨counted, hanswer⟩ := b.store.answer_command t now draw hkey htype
  rw [hcomes] at hanswer
  refine ⟨counted, ?_⟩
  simp only [process, hanswer, htold]
  cases taken <;> rfl

omit [DecidableEq κ] in
/-- Every message that is a command with a key is answered by one event, which tells what the
command has come to and belongs to its request. No other message is answered. -/
theorem one_outcome_per_command (b : Backend) {broker : Broker κ} (hup : broker.reachable = true)
    (t : Topics) (e : Event) (now : Timestamp) (draw : Draw) :
    (∀ key type, e.metadata.correlationKey? = some key → e.eventType = type.commandType →
      ∃ after topic answer,
        b.process broker t e now draw = (.ok (), after, (broker.publish topic answer).2) ∧
        (broker.publish topic answer).2.record = broker.record ++ [(topic, answer)] ∧
        after.store = (b.store.comesTo type e key now draw).2 ∧
        answer.Answers topic t type e now (b.store.comesTo type e key now draw).1 ∧
        answer.metadata.correlationKey? = some key) ∧
    (e.metadata.correlationKey? = none →
      b.process broker t e now draw = (.error (.uncorrelated e.eventType), b, broker)) ∧
    ∀ key, e.metadata.correlationKey? = some key →
      (∀ type : RequestType, e.eventType ≠ type.commandType) →
      b.process broker t e now draw = (.error (.unknownCommand e.eventType), b, broker) := by
  refine ⟨fun key type hkey htype => ?_, fun hkey => ?_, fun key hkey hother => ?_⟩
  · have htyped : ∀ v, (b.store.comesTo type e key now draw).1 = .ok v → v.type = type :=
      fun _ => Store.type_of_comesTo
    rcases hcomes : b.store.comesTo type e key now draw with ⟨result, store⟩
    rw [hcomes] at htyped
    have hanswers := Event.answers_ofResult t e now htyped
    obtain ⟨htaken, -, hrecord⟩ :=
      Broker.publish_reachable hup (t.topicOf type result) (.ofResult e.metadata now result)
    obtain ⟨counted, hprocess⟩ := process_command hkey htype hcomes (Prod.ext htaken rfl)
    exact ⟨_, _, _, hprocess, hrecord, rfl, hanswers, hanswers.correlationKey?.trans hkey⟩
  · rw [process, b.store.answer_uncorrelated t now draw hkey]
  · rw [process, b.store.answer_unknown t now draw hkey hother]

end Backend

namespace Sample

/-- A transaction whose text cannot be read, with a request id and no idempotency key. -/
def garbled : Event :=
  ⟨ApplyTransaction.eventType, ByteArray.empty, { requestId := some "req-1" }⟩

theorem reachable_unit : ({} : Broker Unit).reachable = true :=
  rfl

theorem comesTo_garbled : ∃ error, (({} : Store).comesTo .applyTransaction garbled "req-1"
    .start2025 (draw 0)).1 = .error error ∧ error.code = .validationFailed :=
  ⟨_, rfl, rfl⟩

theorem one_outcome_garbled : (∃ after answer,
    ({} : Backend).process ({} : Broker Unit) {} garbled .start2025 (draw 0) =
        (.ok (), after, (({} : Broker Unit).publish "transactions.events.failed" answer).2) ∧
      (({} : Broker Unit).publish "transactions.events.failed" answer).2.record =
        [("transactions.events.failed", answer)] ∧
      answer.eventType = "CommandRejected.v1" ∧ answer.metadata.correlationKey? = some "req-1") ∧
    ({} : Backend).process ({} : Broker Unit) {} ⟨"Ping.v1", ByteArray.empty, {}⟩ .start2025
      (draw 0) = (.error (.uncorrelated "Ping.v1"), {}, {}) ∧
    ({} : Backend).process ({} : Broker Unit) {} { garbled with eventType := "Ping.v1" } .start2025
      (draw 0) = (.error (.unknownCommand "Ping.v1"), {}, {}) := by
  refine ⟨?_, ?_, ?_⟩
  · obtain ⟨after, topic, answer, hprocess, hrecord, -, hanswers, hkey⟩ :=
      (Backend.one_outcome_per_command {} reachable_unit {} garbled .start2025
        (draw 0)).1 "req-1" .applyTransaction rfl rfl
    obtain ⟨error, herror, -⟩ := comesTo_garbled
    obtain ⟨rfl, htype, -⟩ := hanswers.failed error herror
    exact ⟨after, answer, hprocess, hrecord, htype, hkey⟩
  · exact (Backend.one_outcome_per_command {} reachable_unit {} _ .start2025
      (draw 0)).2.1 rfl
  · refine (Backend.one_outcome_per_command {} reachable_unit {} _ .start2025
      (draw 0)).2.2 "req-1" rfl fun type => ?_
    cases type <;> decide

end Sample

end KeyedLedger
