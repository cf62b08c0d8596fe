import KeyedLedger.Http.Api
import KeyedLedger.Proofs.Bank.Errand
import KeyedLedger.Proofs.Gateway.Delivery

/-! # Who gets as far as the broker

A caller hands a message to the broker only if its order is a command, if its key is not remembered
as completed, and if nobody waits for the key. One whose order is refused leaves everything as it
was, and so does one that is answered from memory. The same holds for a request over HTTP once it
has been understood; one with a bad key or a bad body does not even become an order.
-/

namespace KeyedLedger

/-! ## Refusals -/

theorem map_error {ε α β : Type} {x : Except ε α} {f : α → β} {e : ε}
    (h : x.map f = .error e) : x = .error e := by
  cases x with
  | ok a => cases h
  | error =>
      cases h
      rfl

theorem bind_error {ε α β : Type} {x : Except ε α} {f : α → Except ε β} {P : ε → Prop}
    (hx : ∀ e, x = .error e → P e) (hf : ∀ a e, f a = .error e → P e) (e : ε)
    (h : x >>= f = .error e) : P e := by
  cases x with
  | ok a => exact hf a e h
  | error =>
      cases h
      exact hx e rfl

namespace Order

/-- A request that a rule refuses is refused whenever it is made. -/
theorem obeyed_not_retryable {α : Type} {rule : Except Refusal α} {e : ServiceError}
    (h : obeyed rule = .error e) : e.isRetryable = false := by
  cases rule with
  | ok a => cases h
  | error r =>
      cases h
      cases r <;> rfl

theorem readAccountId_not_retryable {raw : String} {e : ServiceError}
    (h : readAccountId raw = .error e) : e.isRetryable = false := by
  rw [readAccountId] at h
  split at h <;> cases h
  rfl

/-- An order that is refused is refused whenever it is made. -/
theorem command_not_retryable {order : Order} {e : ServiceError} (h : order.command = .error e) :
    e.isRetryable = false := by
  cases order with
  | openAccount request => exact obeyed_not_retryable (map_error h)
  | applyTransaction request =>
      refine bind_error (fun _ => obeyed_not_retryable) (fun _ => ?_) e (map_error h)
      refine bind_error (fun _ => readAccountId_not_retryable) fun _ => ?_
      refine bind_error (fun _ => obeyed_not_retryable) fun _ => ?_
      refine bind_error (fun _ => obeyed_not_retryable) fun _ => ?_
      exact bind_error (fun _ => obeyed_not_retryable) fun _ _ => nofun

theorem unreadable_ne_publish (detail cause : String) :
    "unreadable outcome: " ++ detail ≠ "Publish failed: " ++ cause := by
  intro h
  have hfirst := congrArg (fun t => t.toList.head?) h
  simp only [String.toList_append] at hfirst
  rw [List.head?_append_of_ne_nil _ (by decide), List.head?_append_of_ne_nil _ (by decide)]
    at hfirst
  revert hfirst
  decide

/-- A payload that does not fit is told apart from a command that could not be published. -/
theorem reply_ne_publish (type : RequestType) (payload : Json) (e : BrokerError) :
    reply type payload ≠ .error (.ofGateway (.publish e)) := by
  intro h
  cases type with
  | openAccount =>
      simp only [reply] at h
      split at h
      · cases h
      · exact unreadable_ne_publish _ _ (ServiceError.internal.inj (Except.error.inj h))
  | applyTransaction =>
      simp only [reply] at h
      split at h
      · cases h
      · exact unreadable_ne_publish _ _ (ServiceError.internal.inj (Except.error.inj h))

end Order

theorem Completed.recall_ne_publish (request : Completed) (key : String) (type : RequestType)
    (e : BrokerError) : request.recall key type ≠ .error (.ofGateway (.publish e)) := by
  rw [Completed.recall]
  split
  · exact Order.reply_ne_publish type request.payload e
  · rintro ⟨⟩

/-- A broker that has taken a message is not what it was. -/
theorem Broker.ne_of_publish {κ : Type} {b b' : Broker κ} {topic : String} {event : Event}
    (h : b.publish topic event = (.ok (), b')) : b' ≠ b := by
  rintro rfl
  rw [publish] at h
  split at h
  · have hsent := congrArg (fun x => x.2.sent) h
    simp at hsent
  · cases h

namespace Bank

variable {s s' : Bank} {order : Order} {key requestId : String}

/-! ## The start of an order -/

/-- The message in which a command goes out, and its topic. -/
def message (s : Bank) (c : Command) (key requestId : String) : String × Event :=
  (c.topic s.topics, c.event (.forRequest key requestId c.type.code s.now))

/-- With the start of an order a message is handed to the broker. Either the broker takes it and
the caller waits, or it does not and the caller is told so. -/
inductive Submits (s : Bank) (order : Order) (key requestId : String) (message : String × Event) :
    Prop
  | taken {broker : Broker Recipient} (call : Call)
      (hpublish : s.broker.publish message.1 message.2 = (.ok (), broker))
      (hstart : (s.start order key requestId).1 = .waiting order.requestType call)
      (hbroker : (s.start order key requestId).2.broker = broker)
  | refused {broker : Broker Recipient} {e : BrokerError}
      (hpublish : s.broker.publish message.1 message.2 = (.error e, broker))
      (hstart : (s.start order key requestId).1 = .done (.error (.ofGateway (.publish e))))
      (hbroker : (s.start order key requestId).2.broker = broker)

theorem start_refused {e : ServiceError} (h : order.command = .error e) (key requestId : String) :
    s.start order key requestId = (.done (.error e), s) := by
  rw [start_eq, look_refused h]

theorem start_remembered {c : Command} (hc : order.command = .ok c) {request : Completed}
    (hknown : s.memory.completed? s.now key = some request) (requestId : String) :
    s.start order key requestId = (.done (request.recall key order.requestType), s) := by
  rw [start_eq, look_remembered hc hknown]

theorem withMemory_eq (s : Bank) (m : Memory) : ∃ g second,
    s.withMemory m = { s with gateway := g, second := second } ∧
      g.waiting = s.gateway.waiting := by
  rcases s with ⟨topics, timeout, now, supply, broker, backend, gateway, _ | old⟩
  · exact ⟨{ gateway with memory := m }, none, rfl, rfl⟩
  · exact ⟨gateway, some m, rfl, rfl⟩

/-- A caller who is not the first to wait for its key hands nothing to the broker. -/
theorem start_attached {c : Command} (hc : order.command = .ok c)
    (hunknown : s.memory.completed? s.now key = none)
    (hslot : (s.gateway.waiting.slot? key).isSome) (requestId : String) :
    (s.start order key requestId).1 =
        .waiting order.requestType (c.call s.topics key requestId) ∧
      (s.start order key requestId).2.broker = s.broker := by
  obtain ⟨g, second, hmarked, hwaiting⟩ := s.withMemory_eq (s.memory.markInFlight s.now key)
  have hjoin : (g.waiting.join key).1 = .attached := by
    rwa [Waiting.join_fst_eq_attached, hwaiting]
  rw [start_eq, look_unknown hc hunknown, hmarked]
  simp only [join, Gateway.join, Command.key_call, hjoin]
  exact ⟨trivial, trivial⟩

/-- The first caller to wait for its key hands its command to the broker. -/
theorem start_leading {c : Command} (hc : order.command = .ok c)
    (hunknown : s.memory.completed? s.now key = none)
    (hslot : s.gateway.waiting.slot? key = none) (requestId : String) :
    s.Submits order key requestId (s.message c key requestId) := by
  obtain ⟨g, second, hmarked, hwaiting⟩ := s.withMemory_eq (s.memory.markInFlight s.now key)
  have hjoin : (g.waiting.join key).1 = .publisher := by
    rwa [Waiting.join_fst_eq_publisher, hwaiting]
  have hstart := s.start_eq order key requestId
  rw [look_unknown hc hunknown, hmarked] at hstart
  simp only [join, Gateway.join, hjoin, publishCall, Gateway.publish, Command.call] at hstart
  rcases hpublish : s.broker.publish (c.topic s.topics)
      (.ofJson c.eventType c.toJson (.forRequest key requestId c.type.code s.now)) with
    ⟨e | _, broker⟩
  · simp only [hpublish, failed] at hstart
    refine .refused hpublish (congrArg Prod.fst hstart) ?_
    exact (congrArg (fun x => x.2.broker) hstart).trans (broker_withMemory _ _)
  · simp only [hpublish] at hstart
    exact .taken (c.call s.topics key requestId) hpublish (congrArg Prod.fst hstart)
      (congrArg (fun x => x.2.broker) hstart)

/-! ## What is remembered -/

theorem steps_start (s : Bank) (order : Order) (key requestId : String) :
    s.Steps (s.start order key requestId).2 := by
  rw [start_eq]
  rcases hlook : s.look order key requestId with ⟨result | call, looked⟩
  · exact (s.steps_look order key requestId).of_eq hlook
  · have hlooked := (s.steps_look order key requestId).of_eq hlook
    dsimp only
    rcases hjoin : looked.join call with ⟨_ | _, joined⟩
    · have hjoined := hlooked.trans ((looked.steps_join call).of_eq hjoin)
      dsimp only
      rcases hpublish : joined.publishCall call with ⟨e | _, published⟩
      · have hpublished := hjoined.trans ((joined.steps_publishCall call).of_eq hpublish)
        exact hpublished.trans (published.steps_failed key e)
      · exact hjoined.trans ((joined.steps_publishCall call).of_eq hpublish)
    · exact hlooked.trans ((looked.steps_join call).of_eq hjoin)

/-- All that is remembered is what a domain shows of a value. -/
def Genuine (s : Bank) : Prop :=
  ∀ key request, s.Remembers key request →
    ∃ v : Result, v.Timed ∧ request = ⟨v.type.code, v.payload⟩

namespace Genuine

theorem initial (topics : Topics) (timeout : Span) (lifetime : Int) (supply : Supply)
    (reachable : Bool) : (Bank.initial topics timeout lifetime supply reachable).Genuine := by
  rintro key request ⟨time, hmem | ⟨m, hm, -⟩⟩
  · cases hmem
  · cases hm

/-- No caller adds to what is remembered. -/
theorem steps (h : s.Genuine) (hs : s.Steps s') : s'.Genuine :=
  fun key request hr => h key request (hs.remembers hr)

/-- Whatever reaches a gateway, only what is shown of a value comes to be remembered. -/
theorem route (h : s.Genuine) (type : RequestType) (event : Event) :
    (s.route type event).2.Genuine := by
  rintro key request ⟨time, hmem | hsecond⟩
  · change (key, .completed request time) ∈
      (s.gateway.route type event s.now).2.memory.traces at hmem
    rw [Gateway.route] at hmem
    split at hmem
    next => exact h _ _ ⟨time, .inl hmem⟩
    next k hk =>
      split at hmem
      next outcome hread =>
        rcases Gateway.mem_deliver hmem with hold | ⟨payload, rfl, rfl, rfl⟩
        · exact h _ _ ⟨time, .inl hold⟩
        · cases Gateway.readOutcome_eq_ok_iff.mp hread with
          | answer _ hpayload =>
              obtain ⟨v, rfl, htimed, rfl⟩ := RequestType.payload_ok hpayload
              exact ⟨v, htimed, rfl⟩
      next => exact h _ _ ⟨time, .inl hmem⟩
  · exact h _ _ ⟨time, .inr hsecond⟩

/-- Whatever is delivered, what is remembered stays genuine. -/
theorem accept (h : s.Genuine) (recipient : Recipient) (event : Event) :
    (s.accept recipient event).Genuine := by
  cases recipient with
  | ledger =>
      have hgateway : (s.judge event).2.gateway = s.gateway := rfl
      have hsecond : (s.judge event).2.second = s.second := rfl
      intro key request hr
      rw [Bank.accept, Remembers, hgateway, hsecond] at hr
      exact h key request hr
  | outcomes type => exact h.route type event

theorem deliverUpTo (h : s.Genuine) (n : Nat) : (s.deliverUpTo n).Genuine := by
  induction n generalizing s with
  | zero => exact h
  | succ n ih =>
      rw [Bank.deliverUpTo]
      split
      next s' hdelivered =>
        rw [deliver?] at hdelivered
        split at hdelivered
        next recipient event broker _ =>
          cases hdelivered
          exact ih (accept (s := { s with broker := broker }) h recipient event)
        next => cases hdelivered
      next => exact h

/-- What is remembered stays genuine over a whole call. -/
theorem execute (h : s.Genuine) (order : Order) (key requestId : String) :
    (s.execute order key requestId).2.Genuine := by
  rw [Bank.execute]
  rcases hstart : s.start order key requestId with ⟨progress, started⟩
  have hsettled : started.settle.Genuine :=
    (h.steps ((s.steps_start order key requestId).of_eq hstart)).deliverUpTo _
  cases progress with
  | done result => exact hsettled
  | waiting type call => exact hsettled.steps (started.settle.steps_finish type call)

end Genuine

/-! ## What the start of an order comes to -/

/-- An order that is answered at once, and not because its command could not be published, hands
nothing to the broker. -/
theorem not_submits_of_done {message : String × Event} {result : Except ServiceError Reply}
    (hstart : s.start order key requestId = (.done result, s))
    (hresult : ∀ e, result ≠ .error (.ofGateway (.publish e))) :
    ¬ s.Submits order key requestId message := by
  rintro (⟨call, -, hwaiting, -⟩ | @⟨-, e, -, hrefused, -⟩)
  · cases hwaiting.symm.trans (congrArg Prod.fst hstart)
  · have hdone := hrefused.symm.trans (congrArg Prod.fst hstart)
    exact hresult e (Progress.done.inj hdone).symm

/-- Nor does an order whose caller waits at a broker that is as it was. -/
theorem not_submits_of_waiting {message : String × Event} {type : RequestType} {call : Call}
    (hstart : (s.start order key requestId).1 = .waiting type call)
    (hbroker : (s.start order key requestId).2.broker = s.broker) :
    ¬ s.Submits order key requestId message := by
  rintro (⟨call, hpublish, -, htaken⟩ | ⟨-, hrefused, -⟩)
  · exact Broker.ne_of_publish hpublish (htaken.symm.trans hbroker)
  · cases hrefused.symm.trans hstart

/-- An order leaves the broker alone unless its caller is the first to wait for a key that is not
remembered. -/
theorem leads_or_silent (s : Bank) (order : Order) (key requestId : String) :
    (∃ c, order.command = .ok c ∧ s.memory.completed? s.now key = none ∧
      s.gateway.waiting.slot? key = none) ∨
    (¬ ∃ message, s.Submits order key requestId message) ∧
      (s.start order key requestId).2.broker = s.broker := by
  cases hc : order.command with
  | error e =>
      have hstart := start_refused (s := s) hc key requestId
      refine .inr ⟨?_, by rw [hstart]⟩
      rintro ⟨message, h⟩
      refine not_submits_of_done hstart (fun cause he => ?_) h
      -- what could not be published may be tried again, what is refused may not
      have hretryable := Order.command_not_retryable hc
      rw [Except.error.inj he] at hretryable
      cases hretryable
  | ok c =>
      cases hknown : s.memory.completed? s.now key with
      | some request =>
          have hstart := start_remembered hc hknown requestId
          refine .inr ⟨?_, by rw [hstart]⟩
          rintro ⟨message, h⟩
          exact not_submits_of_done hstart (request.recall_ne_publish key order.requestType) h
      | none =>
          cases hslot : s.gateway.waiting.slot? key with
          | some slot =>
              obtain ⟨hwaiting, hbroker⟩ :=
                start_attached hc hknown (Option.isSome_of_eq_some hslot) requestId
              refine .inr ⟨?_, hbroker⟩
              rintro ⟨message, h⟩
              exact not_submits_of_waiting hwaiting hbroker h
          | none => exact .inl ⟨c, rfl, rfl, rfl⟩

end Bank

namespace Http

/-- The resource that takes the requests of a type. -/
def Resource.ofType : RequestType → Resource
  | .openAccount => .accounts
  | .applyTransaction => .transactions

/-- What a caller is shown who goes by a trace identifier: what has been asked for, or the problem
under that identifier. -/
def answer {α : Type} (status : Nat) (toJson : α → Json) (trace : Identifier) :
    Except ServiceError α → Response
  | .ok a => .document status (toJson a)
  | .error e => .document (Problem.ofService e).status ((Problem.ofService e).under trace)

/-- A problem with a trace identifier is told under it, whatever else might be fresh. -/
theorem Problem.document_of_trace {p : Problem} {trace : Identifier} (h : p.trace = some trace)
    (fresh : Identifier) : p.document fresh = p.under trace := by
  rw [document, h, Option.getD_some]

theorem RequestKey.eq_of_read_error {raw : String} {p : Problem} (hp : read raw = .error p) :
    ∃ rule, p = problem rule := by
  rw [read] at hp
  split at hp
  next =>
    cases hp
    exact ⟨_, rfl⟩
  next =>
    split at hp <;> cases hp
    exact ⟨_, rfl⟩

/-- What is wrong with the key of a request that has been given a trace identifier is told under
it. -/
theorem RequestKey.eq_of_error {h : Headers} {trace fresh : Identifier} {p : Problem}
    (hp : ofHeaders h (some trace) fresh = .error p) :
    ∃ rule, p = (problem rule).withTrace trace := by
  rw [ofHeaders] at hp
  split at hp
  next => cases hp
  next raw _ =>
    split at hp
    next =>
      cases hread : read raw with
      | ok key =>
          rw [hread] at hp
          cases hp
      | error problem =>
          obtain ⟨rule, rfl⟩ := eq_of_read_error hread
          rw [hread] at hp
          cases hp
          exact ⟨rule, rfl⟩
    next =>
      cases hp
      exact ⟨_, rfl⟩

/-- The order in the body of a request, or the response to a body without one. -/
def readOrder (type : RequestType) (r : Request) : Except Response Order :=
  match type with
  | .openAccount => (readBody r AccountRequest.shape).map .openAccount
  | .applyTransaction => (readBody r TransactionRequest.shape).map .applyTransaction

end Http

namespace Bank

open Http

theorem tell_of_trace {p : Problem} {trace : Identifier} (h : p.trace = some trace) (s : Bank) :
    s.tell p = (.document p.status (p.under trace), s) := by
  rw [tell, Response.problem, Problem.document_of_trace h, h]
  rfl

/-- The handler of a request with a trace identifier attaches it to whatever goes wrong. -/
theorem present_forRequest {α : Type} (s : Bank) (status : Nat) (toJson : α → Json)
    (trace : Identifier) (result : Except ServiceError α) :
    s.present status toJson (result.mapError (.forRequest trace)) =
      (answer status toJson trace result, s) := by
  cases result with
  | ok a => rfl
  | error e => exact tell_of_trace (p := .forRequest trace e) rfl s

theorem traceOf_given (s : Bank) (r : Request) (trace : Identifier) :
    s.traceOf ⟨r, some trace⟩ = (trace, s) :=
  rfl

/-- The answer to a request for such a resource, once its key and its body have been read. -/
def attend (s : Bank) (trace : Identifier) :
    Except Problem RequestKey → Except Response Order → Response × Bank
  | .error p, _ => (.document p.status (p.under trace), s)
  | .ok _, .error response => (response, s)
  | .ok key, .ok order =>
    match s.execute order key.value (toString trace) with
    | (result, s) => (answer 201 Reply.toJson trace result, s)

theorem answerOrder_eq {α : Type} (s : Bank) (r : Request) (trace : Identifier) (shape : Shape α)
    (order : α → Order) : s.answerOrder ⟨r, some trace⟩ shape order =
      s.fresh.2.attend trace (RequestKey.ofHeaders r.headers (some trace) s.fresh.1)
        ((readBody r shape).map order) := by
  simp only [answerOrder, traceOf_given]
  cases hkey : RequestKey.ofHeaders r.headers (some trace) s.fresh.1 with
  | error p =>
      obtain ⟨rule, rfl⟩ := RequestKey.eq_of_error hkey
      exact tell_of_trace rfl s.fresh.2
  | ok key =>
      cases readBody r shape with
      | error response => rfl
      | ok request => exact present_forRequest _ 201 Reply.toJson trace _

theorem answerFor_ofType (s : Bank) (r : Request) (trace : Identifier) (type : RequestType) :
    s.answerFor ⟨r, some trace⟩ (.ofType type) =
      s.fresh.2.attend trace (RequestKey.ofHeaders r.headers (some trace) s.fresh.1)
        (readOrder type r) := by
  cases type with
  | openAccount => exact answerOrder_eq s r trace AccountRequest.shape .openAccount
  | applyTransaction => exact answerOrder_eq s r trace TransactionRequest.shape .applyTransaction

end Bank

namespace Sample

/-- An account without balances. -/
def bare : Account :=
  ⟨identifier 0, customer, country, [], .start2025, .start2025⟩

end Sample

end KeyedLedger
