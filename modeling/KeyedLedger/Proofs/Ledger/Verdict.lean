import KeyedLedger.Gateway.Routing
import KeyedLedger.Ledger.Verdict
import KeyedLedger.Proofs.Service.Order

/-! # Outcomes tell what a command came to

An outcome is read by a gateway as what carrying out the command came to: the payload of the value,
or the rejection with the code and the wording of the error. A message that the ledger judges is
answered by such an outcome if judging it comes to what an instruction comes to.
-/

namespace KeyedLedger

/-- The topics on which requests of a type are answered. -/
def Topics.outcomesOf (t : Topics) : RequestType → List String
  | .openAccount => t.accountOutcomes
  | .applyTransaction => t.transactionOutcomes

/-- What a domain shows of an event is what is shown of a value, whose times can be written. -/
theorem RequestType.payload_ok {type : RequestType} {e : Event} {payload : Json}
    (h : type.payload e = .ok payload) :
    ∃ v : Result, v.type = type ∧ v.Timed ∧ payload = v.payload := by
  cases type with
  | openAccount =>
      obtain ⟨a, ha, h⟩ := bind_ok h
      cases h
      exact ⟨.opened a, rfl, Account.yields_timed_outcome.event ha, rfl⟩
  | applyTransaction =>
      obtain ⟨a, ha, h⟩ := bind_ok h
      cases h
      exact ⟨.applied a, rfl, Applied.yields_timed.decoder.event ha, rfl⟩

theorem RequestType.answerType_ne_rejection (type : RequestType) :
    type.answerType ≠ Rejection.eventType := by
  cases type <;> decide

namespace Gateway

/-- An event of a domain carries an outcome. -/
inductive Carries (type : RequestType) (event : Event) : Outcome → Prop
  | answer {payload : Json} : event.eventType = type.answerType →
      type.payload event = .ok payload → Carries type event (.answer payload)
  | rejection {r : Rejection} : event.eventType = Rejection.eventType →
      event.decode Rejection.shape.decoder = .ok r → Carries type event (.rejection r)

theorem readOutcome_eq_ok_iff {type : RequestType} {event : Event} {outcome : Outcome} :
    readOutcome type event = .ok outcome ↔ Carries type event outcome := by
  have htypes : Rejection.eventType ≠ type.answerType := type.answerType_ne_rejection.symm
  constructor
  · intro h
    rw [readOutcome] at h
    split at h
    next hanswer =>
      split at h
      next payload hpayload => cases h; exact .answer hanswer hpayload
      next => cases h
    next =>
      split at h
      next hrejection =>
        split at h
        next r hr => cases h; exact .rejection hrejection hr
        next => cases h
      next => cases h
  · rintro (⟨hanswer, hpayload⟩ | ⟨hrejection, hr⟩)
    · rw [readOutcome, if_pos hanswer, hpayload]
    · rw [readOutcome, if_neg (hrejection ▸ htypes), if_pos hrejection, hr]

/-- The outcome that tells what a command came to. -/
def Outcome.ofResult (requestId : Option String) (now : Timestamp) :
    Except LedgerError Result → Outcome
  | .ok v => .answer v.payload
  | .error e => .rejection ⟨e.code, e.message, requestId, now⟩

theorem readOutcome_account {a : Account} (h : a.Legible) (m : Metadata) :
    readOutcome .openAccount (.ofJson Account.eventType a.toOutcome m) =
      .ok (.answer (Result.opened a).payload) := by
  have hread := Event.decode_ofJson a.wholeOutcome h.readsOutcome Account.eventType m
  rw [readOutcome, Event.eventType_ofJson, RequestType.answerType, if_pos rfl, RequestType.payload]
  simp only [hread]
  rfl

theorem readOutcome_applied {a : Applied} (ht : a.transaction.Legible) (hb : a.balance.Legible)
    (m : Metadata) :
    readOutcome .applyTransaction (.ofJson Applied.eventType a.toJson m) =
      .ok (.answer (Result.applied a).payload) := by
  have hread := Event.decode_ofJson a.whole (Applied.reads ht hb) Applied.eventType m
  rw [readOutcome, Event.eventType_ofJson, RequestType.answerType, if_pos rfl, RequestType.payload]
  simp only [hread]
  rfl

theorem readOutcome_rejection (type : RequestType) {r : Rejection}
    (h : Timestamp.yearInRange r.timestamp.date.year = true) (m : Metadata) :
    readOutcome type (.ofJson Rejection.eventType r.toJson m) = .ok (.rejection r) := by
  have hread := Event.decode_ofJson r.whole (Rejection.reads h) Rejection.eventType m
  have htype : Rejection.eventType ≠ type.answerType := type.answerType_ne_rejection.symm
  rw [readOutcome, Event.eventType_ofJson, if_neg htype, if_pos rfl]
  simp only [hread]

end Gateway

/-- The event answers a request of a type under a key with an outcome. -/
structure Event.Tells (e : Event) (type : RequestType) (key : String) (outcome : Gateway.Outcome) :
    Prop where
  key : e.metadata.correlationKey? = some key
  outcome : Gateway.readOutcome type e = .ok outcome

namespace Store

variable {s : Store}

/-- A message is answered by what carrying out an instruction comes to, and the instruction is
carried out. -/
def Judges (s : Store) (t : Topics) (i : Instruction) (requestId : Option String)
    (judged : Except VerdictError Verdict × Store) : Prop :=
  ∃ verdict s', judged = (.ok verdict, s') ∧ s'.disturbances = s.disturbances ∧
    s'.ledger = (s.ledger.serve i).2 ∧ verdict.topic ∈ t.outcomesOf i.command.type ∧
    verdict.event.Tells i.command.type i.key
      (.ofResult requestId i.now (s.ledger.serve i).1.outcome)

/-- Carrying out a command on the store comes to what its instruction comes to. -/
def Follows (s : Store) (i : Instruction) : Prop :=
  s.ledger.serve i = match i.command with
    | .openAccount c => (.opened (s.openAccount c i.key i.now i.draw).1,
        (s.openAccount c i.key i.now i.draw).2.ledger)
    | .applyTransaction c => (.applied (s.applyTransaction c i.key i.now i.draw).1,
        (s.applyTransaction c i.key i.now i.draw).2.ledger)

/-- On a store that does not fail it makes no difference what the store has been asked before. -/
theorem follows_of_calm (hcalm : s.disturbances = .none) (c : Command) (key : String)
    (now : Timestamp) (draw : Draw) : s.Follows ⟨c, key, now, draw, .none⟩ := by
  cases c with
  | openAccount c => exact openAccount_of_calm hcalm c key now draw
  | applyTransaction c => exact applyTransaction_of_calm hcalm c key now draw

/-- The calls of an instruction are counted from the moment that it is disturbed. -/
theorem follows_disturb (s : Store) (i : Instruction) :
    (s.disturb i.disturbances).Follows i := by
  rcases i with ⟨_ | _, key, now, draw, d⟩ <;> rfl

end Store

end KeyedLedger
