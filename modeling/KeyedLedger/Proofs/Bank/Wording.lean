import KeyedLedger.Proofs.Bank.Entrance
import KeyedLedger.Proofs.Ledger.Publication

/-! # What a caller is told of a refusal

The ledger refuses a command with an error. The error is written as news, published, read by a
gateway and handed to everybody who waits for the key. They all learn the code of the error and its
wording as the ledger had them. Over HTTP the wording of what the program itself got wrong goes no
further than the gateway.
-/

namespace KeyedLedger

open Http

/-- What a client is sent of an error: its code, and its wording unless that is concealed. -/
def LedgerError.document (error : LedgerError) (trace : Identifier) : Json :=
  .object [
    ("code", .string error.code.code),
    ("message", .string (if error.code = .internalError then Problem.concealed else error.message)),
    ("traceId", .string (toString trace))]

/-- What a caller is told conveys an error of the ledger. -/
structure ServiceError.Conveys (told : ServiceError) (error : LedgerError) : Prop where
  code : told.code = error.code.code
  message : told.message = error.message
  retryable : told.isRetryable = true ↔
    error.code = .concurrentModification ∨ error.code = .internalError
  problemCode : (Problem.ofService told).code = error.code.code
  problemMessage : (Problem.ofService told).message =
    if error.code = .internalError then Problem.concealed else error.message
  response : ∀ {α : Type} (s : Bank) (status : Nat) (toJson : α → Json) (trace : Identifier),
    s.present status toJson ((.error told : Except ServiceError α).mapError (.forRequest trace)) =
      (.document (Problem.ofService told).status (error.document trace), s)

/-- The error for a code and a wording conveys the error that has them. -/
theorem ServiceError.conveys_ofCode (error : LedgerError) :
    (ofCode error.code error.message).Conveys error := by
  have hparts : ∀ (code : ErrorCode) (message : String),
      (ofCode code message).code = code.code ∧ (ofCode code message).message = message ∧
      ((ofCode code message).isRetryable = true ↔
        code = .concurrentModification ∨ code = .internalError) ∧
      (Problem.ofService (ofCode code message)).code = code.code ∧
      (Problem.ofService (ofCode code message)).message =
        if code = .internalError then Problem.concealed else message := by
    intro code message
    cases code <;> simp [ofCode, ServiceError.code, ServiceError.message, isRetryable,
      Problem.ofService, Problem.withCode, Problem.badRequest, Problem.notFound,
      Problem.unprocessable, Problem.conflict, Problem.ofSource, Problem.internal]
  obtain ⟨hcode, hmessage, hretryable, hproblem, hwording⟩ := hparts error.code error.message
  refine ⟨hcode, hmessage, hretryable, hproblem, hwording, ?_⟩
  intro α s status toJson trace
  rw [Bank.present_forRequest, answer, Problem.under, LedgerError.document, hproblem, hwording]

namespace Bank

variable {s : Bank} {key : String}

theorem judge_of_process {e : Event} {result : Except VerdictError Unit} {backend : Backend}
    {broker : Broker Recipient}
    (h : s.backend.process s.broker s.topics e s.now s.supply.draw.1 = (result, backend, broker)) :
    s.judge e =
      (result, { s with supply := s.supply.draw.2, backend := backend, broker := broker }) := by
  rcases hdraw : s.supply.draw with ⟨draw, supply⟩
  rw [hdraw] at h
  simp only [judge, hdraw, h]

theorem withMemory_waiting (s : Bank) (m : Memory) :
    (s.withMemory m).gateway.waiting = s.gateway.waiting := by
  rw [withMemory]
  split <;> rfl

/-- One of those who wait for a key that has been rejected is told so, and leaves. -/
theorem finish_rejected {call : Call} {rejection : Rejection} {n : Nat}
    (h : s.gateway.waiting.slot? call.key = some ⟨some (.rejected rejection), n⟩)
    (type : RequestType) :
    (s.finish (.waiting type call)).1 = .error (.ofCode rejection.code rejection.reason) ∧
      (s.finish (.waiting type call)).2.gateway.waiting = s.gateway.waiting.leave call.key := by
  have hseen : s.gateway.waiting.outcome? call.key = some (.rejected rejection) := by
    rw [Waiting.outcome?, h]
    rfl
  have hcall : s.finishCall call s.timeout = (.error (.rejected rejection),
      { s with gateway := s.gateway.leave call.key }) := by
    rw [finishCall, Gateway.finish, Gateway.outcome_of_some hseen]
    rfl
  rw [finish, hcall]
  exact ⟨rfl, withMemory_waiting _ _⟩

/-- All who wait for a key that has been rejected are told so, one after the other. -/
theorem finishAll_rejected {rejection : Rejection} {n : Nat} {calls : List (RequestType × Call)}
    (h : s.gateway.waiting.slot? key = some ⟨some (.rejected rejection), n⟩)
    (hkeys : ∀ c ∈ calls, c.2.key = key) (hwaiters : calls.length ≤ n) :
    (s.finishAll (calls.map fun c => .waiting c.1 c.2)).1 =
      calls.map fun _ => .error (.ofCode rejection.code rejection.reason) := by
  induction calls generalizing s n with
  | nil => rfl
  | cons c rest ih =>
      obtain rfl := hkeys c List.mem_cons_self
      obtain ⟨htold, hleft⟩ := finish_rejected h c.1
      rcases hfinish : s.finish (.waiting c.1 c.2) with ⟨result, left⟩
      rw [hfinish] at htold hleft
      dsimp only at htold hleft
      -- The slot stays as long as somebody else waits.
      have hrest : (left.finishAll (rest.map fun c => .waiting c.1 c.2)).1 =
          rest.map fun _ => .error (.ofCode rejection.code rejection.reason) := by
        cases rest with
        | nil => rfl
        | cons c' rest =>
            have hothers : ¬ n ≤ 1 := by
              simp only [List.length_cons] at hwaiters
              omega
            have hslot : left.gateway.waiting.slot? c.2.key =
                some ⟨some (.rejected rejection), n - 1⟩ := by
              rw [hleft, Waiting.slot?_leave, if_pos rfl, h]
              simp only [Option.bind_some, if_neg hothers]
            refine ih hslot (fun d hd => hkeys d (List.mem_cons_of_mem _ hd)) ?_
            simp only [List.length_cons] at hwaiters ⊢
            omega
      simp only [List.map_cons, finishAll, hfinish, hrest, htold]

/-- The gateway hands a rejection to those who wait for its key. -/
theorem route_rejection {answer : Event} {rejection : Rejection} {n : Nat}
    (hslot : s.gateway.waiting.slot? key = some ⟨none, n⟩) (type : RequestType)
    (htells : answer.Tells type key (.rejection rejection)) :
    (s.route type answer).1 = .ok () ∧
      (s.route type answer).2.gateway.waiting.slot? key =
        some ⟨some (.rejected rejection), n⟩ := by
  have hheard : Gateway.heard? type answer = some (key, .rejected rejection) := by
    rw [Gateway.heard?, htells.key, htells.outcome]
    rfl
  constructor
  · rw [route, Gateway.route, htells.key]
    simp only [htells.outcome]
  · have hwaiting := s.gateway.route_waiting type answer s.now
    rw [hheard] at hwaiting
    change (s.gateway.route type answer s.now).2.waiting.slot? key = _
    rw [hwaiting, Waiting.slot?_resolve, if_pos rfl, hslot]
    rfl

/-- Whatever the reason for which the ledger refuses a command, and whatever it says, the refusal is
published on the topic of its domain for what failed, and everybody who waits for the key of the
command is told an error that conveys it. -/
theorem refusal_conveyed {e : Event} {type : RequestType} {error : LedgerError}
    (hup : s.broker.reachable = true) (hclock : Timestamp.yearInRange s.now.date.year = true)
    (hkey : e.metadata.correlationKey? = some key) (htype : e.eventType = type.commandType)
    (hrefused : (s.backend.store.comesTo type e key s.now s.supply.draw.1).1 = .error error) :
    ∃ answer told, (s.judge e).1 = .ok () ∧
      (s.judge e).2.broker.record = s.broker.record ++ [(s.topics.failedOf type, answer)] ∧
      s.topics.failedOf type ∈ s.topics.outcomesOf type ∧
      told.Conveys error ∧
      ∀ (s' : Bank) (n : Nat), s'.gateway.waiting.slot? key = some ⟨none, n⟩ →
        (s'.route type answer).1 = .ok () ∧
        ∀ calls : List (RequestType × Call), (∀ c ∈ calls, c.2.key = key) → calls.length ≤ n →
          ((s'.route type answer).2.finishAll (calls.map fun c => .waiting c.1 c.2)).1 =
            calls.map fun _ => .error told := by
  rcases hcomes : s.backend.store.comesTo type e key s.now s.supply.draw.1 with ⟨result, store⟩
  rw [hcomes] at hrefused
  obtain rfl : result = .error error := hrefused
  obtain ⟨htaken, -, hrecord⟩ := Broker.publish_reachable hup (s.topics.failedOf type)
    (.ofResult e.metadata s.now (.error error))
  obtain ⟨counted, hprocess⟩ := Backend.process_command hkey htype hcomes (Prod.ext htaken rfl)
  have htells : (Event.ofResult e.metadata s.now (.error error)).Tells type key
      (.rejection (error.rejection e.metadata.requestId s.now)) :=
    Event.ofResult_tells hkey hclock fun _ h => (by cases h)
  refine ⟨.ofResult e.metadata s.now (.error error), .ofCode error.code error.message, ?_, ?_,
    s.topics.topicOf_mem type (.error error), ServiceError.conveys_ofCode error, ?_⟩
  · rw [judge_of_process hprocess]
    rfl
  · rw [judge_of_process hprocess]
    exact hrecord
  · intro s' n hslot
    obtain ⟨hrouted, hresolved⟩ := s'.route_rejection hslot type htells
    exact ⟨hrouted, fun calls hkeys hwaiters => finishAll_rejected hresolved hkeys hwaiters⟩

end Bank

namespace Sample

/-- A bank whose store fails at the start of the next unit of work. -/
def failing : Bank :=
  { Bank.initial {} ⟨5000⟩ 60000 ⟨identifier, 0⟩ true with
    backend := { store := { disturbances := .once .begin (.fails (.database "down")) } } }

/-- The same bank, with two who wait for an account under one key. -/
def awaited : Bank :=
  { failing with gateway := { failing.gateway with waiting := ⟨[("open", ⟨none, 2⟩)]⟩ } }

/-- The command of the two who wait. -/
def awaitedEvent : Event :=
  opening.command.event (.forRequest "open" "req-1" "ACCOUNT_CREATE" .start2025)

theorem comesTo_awaited : (failing.backend.store.comesTo .openAccount awaitedEvent "open"
    failing.now failing.supply.draw.1).1 = .error (.store (.database "down")) := by
  have hread : awaitedEvent.readCommand .openAccount = .ok opening.command :=
    Event.readCommand_event (c := opening.command) trivial _
  rw [Store.comesTo, hread]
  rfl

/-- Both are told that the store is down; a client of theirs is not. -/
theorem refusal_conveyed_down : ∃ answer told, (failing.judge awaitedEvent).1 = .ok () ∧
    (failing.judge awaitedEvent).2.broker.record = [("accounts.events.failed", answer)] ∧
    told.message = "Ledger storage failed: Database error: down" ∧ told.isRetryable = true ∧
    (Http.Problem.ofService told).message = Http.Problem.concealed ∧
    ((awaited.route .openAccount answer).2.finishAll
      [.waiting .openAccount (opening.command.call {} "open" "req-1"),
        .waiting .openAccount (opening.command.call {} "open" "req-2")]).1 =
      [.error told, .error told] := by
  obtain ⟨answer, told, hjudged, hrecord, -, hconveys, hwaiting⟩ :=
    Bank.refusal_conveyed rfl (by decide) rfl rfl comesTo_awaited
  obtain ⟨-, hfinish⟩ := hwaiting awaited 2 rfl
  refine ⟨answer, told, hjudged, hrecord, hconveys.message.trans rfl,
    hconveys.retryable.mpr (.inr rfl), hconveys.problemMessage.trans (if_pos rfl), ?_⟩
  refine hfinish [(.openAccount, opening.command.call {} "open" "req-1"),
    (.openAccount, opening.command.call {} "open" "req-2")] ?_ (by decide)
  simp

end Sample

end KeyedLedger
