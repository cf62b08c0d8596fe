import KeyedLedger.Bank.Service
import KeyedLedger.Proofs.Bank.Carrying
import KeyedLedger.Proofs.Gateway.Keys
import KeyedLedger.Proofs.Ledger.Publication

/-! # The course of a call

A call runs in steps: its caller looks up its key and joins those who wait for it, the first of them
publishes the command, the ledger carries it out and answers, the gateway takes the answer to those
who wait, and each of them leaves with it. Here is what each step does to a bank in good standing,
in which what is remembered agrees with what is recorded. No step makes a bank lose that standing,
and only the step of the ledger changes what is committed.
-/

namespace KeyedLedger

theorem RequestType.code_injective : Function.Injective RequestType.code := by
  intro a b h
  cases a <;> cases b <;> simp_all [code]

/-- The ledger listens to commands. -/
theorem Command.topic_mem_heardBy (c : Command) (t : Topics) : c.topic t ∈ t.heardBy .ledger := by
  cases c
  · exact List.mem_cons_self
  · exact List.mem_cons_of_mem _ List.mem_cons_self

namespace Bank

/-- What is committed. -/
def ledger (s : Bank) : Ledger :=
  s.backend.store.ledger

/-- The instruction that a command makes if it reaches the ledger now. -/
def instruction (s : Bank) (c : Command) (key : String) : Instruction :=
  ⟨c, key, s.now, s.supply.draw.1, .none⟩

/-- Two banks in which the same is committed and a command makes the same instruction. -/
structure SameBooks (s s' : Bank) : Prop where
  backend : s'.backend = s.backend
  now : s'.now = s.now
  supply : s'.supply = s.supply

namespace SameBooks

variable {s s' s'' : Bank}

theorem ledger (h : s.SameBooks s') : s'.ledger = s.ledger :=
  congrArg (fun b : Backend => b.store.ledger) h.backend

theorem instruction (h : s.SameBooks s') (c : Command) (key : String) :
    s'.instruction c key = s.instruction c key := by
  rw [Bank.instruction, h.now, h.supply, Bank.instruction]

theorem trans (h : s.SameBooks s') (h' : s'.SameBooks s'') : s.SameBooks s'' :=
  ⟨h'.backend.trans h.backend, h'.now.trans h.now, h'.supply.trans h.supply⟩

end SameBooks

/-- Only one gateway takes calls, the store does not fail, what is recorded can be written, and each
completed request that is remembered is recorded. -/
structure Standing (t : Topics) (s : Bank) : Prop where
  topics : s.topics = t
  second : s.second = none
  calm : s.backend.store.disturbances = .none
  cents : s.ledger.InCents
  written : s.ledger.Written
  clock : Timestamp.yearInRange s.now.date.year = true
  remembered : ∀ key request time, (key, .completed request time) ∈ s.gateway.memory.traces →
    ∃ v, s.ledger.Records key v ∧ request = ⟨v.type.code, v.payload⟩

variable {t : Topics} {s : Bank} {key : String}

theorem Standing.memory (h : s.Standing t) : s.memory = s.gateway.memory := by
  rw [Bank.memory, h.second]
  rfl

theorem Standing.withMemory (h : s.Standing t) (m : Memory) :
    s.withMemory m = { s with gateway := { s.gateway with memory := m } } := by
  rw [Bank.withMemory, h.second]

/-- The standing of a bank depends on what its gateway remembers, and on nothing else of it. -/
theorem Standing.of_gateway (h : s.Standing t) {s' : Bank} (htopics : s'.topics = s.topics)
    (hsecond : s'.second = s.second) (hbooks : s.SameBooks s')
    (hremembered : ∀ key request time,
      (key, .completed request time) ∈ s'.gateway.memory.traces →
        (key, .completed request time) ∈ s.gateway.memory.traces ∨
          ∃ v, s.ledger.Records key v ∧ request = ⟨v.type.code, v.payload⟩) : s'.Standing t := by
  have hledger := hbooks.ledger
  refine ⟨htopics.trans h.topics, hsecond.trans h.second, ?_, ?_, ?_, ?_, ?_⟩
  · rw [hbooks.backend]
    exact h.calm
  · rw [hledger]
    exact h.cents
  · rw [hledger]
    exact h.written
  · rw [hbooks.now]
    exact h.clock
  · intro key request time hmem
    rw [hledger]
    rcases hremembered key request time hmem with hold | hnew
    · exact h.remembered key request time hold
    · exact hnew

end Bank

/-! ## Steps -/

/-- What becomes of a caller who looks up its key: it is answered, or has a call to make. -/
inductive Entry where
  | answered (result : Except ServiceError Reply)
  | admitted (call : Call)

/-- What a caller is told whose key has been remembered with a value. -/
def Result.recall (v : Result) (key : String) (type : RequestType) : Except ServiceError Reply :=
  if v.type = type then .ok v.reply
  else .error (.validation (LedgerError.keyTakenMessage key v.type.code))

/-- What a caller is told whose key is remembered with a completed request. -/
def Completed.recall (request : Completed) (key : String) (type : RequestType) :
    Except ServiceError Reply :=
  if request.requestType = type.code then Order.reply type request.payload
  else .error (.validation (LedgerError.keyTakenMessage key request.requestType))

/-- A payload of the caller's own type is read back; one of the other type is refused unread. -/
theorem Result.Legible.recall_eq {v : Result} (h : v.Legible) (key : String) (type : RequestType) :
    (⟨v.type.code, v.payload⟩ : Completed).recall key type = v.recall key type := by
  rw [Completed.recall, Result.recall]
  by_cases htype : v.type = type
  · rw [if_pos htype, if_pos (congrArg RequestType.code htype), ← htype]
    exact h.reply_payload
  · rw [if_neg htype, if_neg fun hcode => htype (RequestType.code_injective hcode)]

/-- What a caller is told of the result that it has waited for. -/
def Result.tell (type : RequestType) : Except LedgerError Result → Except ServiceError Reply
  | .ok v => Order.reply type v.payload
  | .error e => .error (.ofCode e.code e.message)

namespace Bank

/-- A caller with an order looks up its key. -/
def look (s : Bank) (order : Order) (key requestId : String) : Entry × Bank :=
  match order.toCall s.topics key requestId with
  | .error e => (.answered (.error e), s)
  | .ok call =>
    match s.memory.answer? s.now key call.requestType with
    | some known => (.answered (known.bind (Order.reply order.requestType)), s)
    | none => (.admitted call, s.withMemory (s.memory.markInFlight s.now key))

/-- A caller joins those who wait for the key of its call. -/
def join (s : Bank) (call : Call) : Role × Bank :=
  match s.gateway.join call.key with
  | (role, gateway) => (role, { s with gateway := gateway })

/-- A caller publishes the command of its call. If the broker does not take it, the caller leaves.
-/
def publishCall (s : Bank) (call : Call) : Except GatewayError Unit × Bank :=
  match s.gateway.publish s.broker call s.now with
  | (.ok (), gateway, broker) => (.ok (), { s with gateway := gateway, broker := broker })
  | (.error e, gateway, broker) =>
    (.error e, { s with gateway := gateway.leave call.key, broker := broker })

/-- To start an order is to look up its key, to join those who wait for it and, for the first of
them, to publish the command. -/
theorem start_eq (s : Bank) (order : Order) (key requestId : String) :
    s.start order key requestId = match s.look order key requestId with
      | (.answered result, s) => (.done result, s)
      | (.admitted call, s) =>
        match s.join call with
        | (.attached, s) => (.waiting order.requestType call, s)
        | (.publisher, s) =>
          match s.publishCall call with
          | (.ok (), s) => (.waiting order.requestType call, s)
          | (.error e, s) =>
            match s.failed key e with
            | (result, s) => (.done result, s) := by
  rw [start, look]
  cases order.toCall s.topics key requestId with
  | error e => rfl
  | ok call =>
  dsimp only
  cases s.memory.answer? s.now key call.requestType with
  | some known => rfl
  | none =>
  dsimp only [startCall, Gateway.start, join]
  rcases (s.withMemory (s.memory.markInFlight s.now key)).gateway.join call.key with
    ⟨_ | _, gateway⟩
  · dsimp only [publishCall]
    rcases gateway.publish _ call _ with ⟨_ | _, gateway, broker⟩ <;> rfl
  · rfl

variable {t : Topics} {s : Bank} {key : String} {order : Order}

/-! ### Looking up a key -/

/-- A caller is refused if its order is. -/
theorem look_refused {e : ServiceError} (h : order.command = .error e) (key requestId : String) :
    s.look order key requestId = (.answered (.error e), s) := by
  rw [look, order.toCall_eq, h]
  rfl

/-- A caller whose key is remembered as completed is told so. -/
theorem look_remembered {c : Command} (hc : order.command = .ok c) {request : Completed}
    (hknown : s.memory.completed? s.now key = some request) (requestId : String) :
    s.look order key requestId = (.answered (request.recall key order.requestType), s) := by
  rw [look, order.toCall_eq, hc]
  simp only [Except.map, Command.call, Order.type_of_command hc, Memory.answer?, hknown,
    Option.map_some, Completed.recall]
  by_cases htype : request.requestType = order.requestType.code
  · rw [if_pos htype, if_pos htype]
    rfl
  · rw [if_neg htype, if_neg htype]
    rfl

/-- Any other caller has a call to make. -/
theorem look_unknown {c : Command} (hc : order.command = .ok c)
    (hunknown : s.memory.completed? s.now key = none) (requestId : String) :
    s.look order key requestId = (.admitted (c.call s.topics key requestId),
      s.withMemory (s.memory.markInFlight s.now key)) := by
  rw [look, order.toCall_eq, hc]
  simp only [Except.map, Command.call, Memory.answer?, hunknown, Option.map_none]

/-- In good standing, a completed request that is remembered is answered as the recorded value
tells. -/
theorem Standing.look_recalled (h : s.Standing t) {c : Command} (hc : order.command = .ok c)
    {request : Completed} (hknown : s.memory.completed? s.now key = some request)
    (requestId : String) : ∃ v, s.ledger.Records key v ∧
      s.look order key requestId = (.answered (v.recall key order.requestType), s) := by
  have hmemory := hknown
  rw [h.memory] at hmemory
  obtain ⟨time, hmem⟩ := Memory.mem_of_completed? hmemory
  obtain ⟨v, hrecords, rfl⟩ := h.remembered key request time hmem
  refine ⟨v, hrecords, ?_⟩
  rw [look_remembered hc hknown, (h.written key v hrecords).recall_eq]

theorem Standing.look_admitted (h : s.Standing t) {c : Command} (hc : order.command = .ok c)
    (hunknown : s.memory.completed? s.now key = none) (requestId : String) :
    ∃ s', s.look order key requestId = (.admitted (c.call t key requestId), s') ∧
      s'.Standing t ∧ s.SameBooks s' ∧ s'.broker = s.broker ∧
      s'.gateway.waiting = s.gateway.waiting := by
  have hlook : s.look order key requestId = (.admitted (c.call t key requestId), { s with
      gateway := { s.gateway with memory := s.gateway.memory.markInFlight s.now key } }) := by
    obtain rfl := h.topics
    rw [look_unknown hc hunknown, h.withMemory, h.memory]
  refine ⟨_, hlook, ?_, ⟨rfl, rfl, rfl⟩, rfl, rfl⟩
  exact h.of_gateway rfl rfl ⟨rfl, rfl, rfl⟩ fun _ _ _ hmem => .inl (Memory.mem_markInFlight hmem)

/-! ### Joining -/

theorem Standing.join (h : s.Standing t) {call : Call} (hkey : call.key = key) :
    ∃ s', s.join call = ((s.gateway.waiting.join key).1, s') ∧ s'.Standing t ∧
      s.SameBooks s' ∧ s'.broker = s.broker ∧
      s'.gateway.waiting = (s.gateway.waiting.join key).2 := by
  obtain rfl := hkey
  refine ⟨_, rfl, ?_, ⟨rfl, rfl, rfl⟩, rfl, rfl⟩
  exact h.of_gateway rfl rfl ⟨rfl, rfl, rfl⟩ fun _ _ _ hmem => .inl hmem

/-! ### Publishing -/

/-- The command of a call is on its way once it has been published. -/
theorem Standing.publishCall (h : s.Standing t) (hbroker : s.broker.Carries t none) (c : Command)
    (key requestId : String) :
    ∃ s' p, s.publishCall (c.call t key requestId) = (.ok (), s') ∧ s'.Standing t ∧
      s.SameBooks s' ∧ s'.broker.Carries t (some (c.topic t, p)) ∧
      p.event = c.event (.forRequest key requestId c.type.code s.now) ∧
      s'.gateway.waiting = s.gateway.waiting := by
  obtain ⟨broker, hpublish, hcarries⟩ :=
    hbroker.publish (c.topic t) (c.event (.forRequest key requestId c.type.code s.now))
  have hcall : s.publishCall (c.call t key requestId) = (.ok (), { s with
      broker := broker
      gateway := { s.gateway with
        metrics := s.gateway.metrics.count (.published c.type.code) } }) := by
    rw [Command.event] at hpublish
    rw [Bank.publishCall, Gateway.publish, Command.call, hpublish]
  refine ⟨_, _, hcall, ?_, ⟨rfl, rfl, rfl⟩, hcarries, rfl, rfl⟩
  exact h.of_gateway rfl rfl ⟨rfl, rfl, rfl⟩ fun _ _ _ hmem => .inl hmem

/-! ### Delivery -/

theorem deliver?_eq {recipient : Recipient} {e : Event} {broker : Broker Recipient}
    (h : s.broker.next? = some (recipient, e, broker)) :
    s.deliver? = some ({ s with broker := broker }.accept recipient e) := by
  rw [deliver?, h]

theorem deliver?_idle (h : s.broker.Carries t none) : s.deliver? = none := by
  rw [deliver?, h.next?_none]

/-- A message that is on its way can be delivered. -/
theorem exists_deliver (hdistinct : t.Distinct) {topic : String} {p : Posting}
    (hbroker : s.broker.Carries t (some (topic, p))) {recipient : Recipient}
    (htopic : topic ∈ t.heardBy recipient) : ∃ s', s.deliver? = some s' := by
  obtain ⟨idle, hnext, -⟩ := hbroker.next?_some hdistinct htopic
  exact ⟨_, deliver?_eq hnext⟩

/-- The ledger answers a command with what carrying it out comes to. -/
theorem Standing.answer (h : s.Standing t) {c : Command} (hc : c.Legible) {m : Metadata}
    (hm : m.correlationKey? = some key) :
    ∃ verdict store, s.backend.store.answer t (c.event m) s.now s.supply.draw.1 =
        (.ok verdict, store) ∧
      store.ledger = (s.ledger.serve (s.instruction c key)).2 ∧
      verdict.topic ∈ t.outcomesOf c.type ∧
      verdict.event.Tells c.type key
        (.ofResult m.requestId s.now (s.ledger.serve (s.instruction c key)).1.outcome) ∧
      ∀ supply metrics broker,
        ({ s with supply := supply, backend := ⟨store, metrics⟩, broker := broker } :
          Bank).Standing t := by
  obtain ⟨verdict, store, hjudged, hcalm, hafter, htopic, htells⟩ :=
    Store.answer_event h.cents h.written t hc
      (Store.follows_of_calm h.calm c key s.now s.supply.draw.1) hm h.clock
  refine ⟨verdict, store, hjudged, hafter, htopic, htells, fun supply metrics broker => ?_⟩
  have hinstruction : Timestamp.yearInRange (s.instruction c key).now.date.year = true := h.clock
  refine ⟨h.topics, h.second, hcalm.trans h.calm, ?_, ?_, h.clock, ?_⟩
  · change store.ledger.InCents
    rw [hafter]
    exact h.cents.serve _
  · change store.ledger.Written
    rw [hafter]
    exact h.written.serve h.cents hinstruction
  -- What is remembered was recorded before the command, and stays recorded.
  · intro key request time hmem
    obtain ⟨v, hrecords, hrequest⟩ := h.remembered key request time hmem
    refine ⟨v, ?_, hrequest⟩
    change store.ledger.Records key v
    rw [hafter]
    exact hrecords.serve _

/-- A command reaches the ledger, which carries it out and answers. -/
theorem Standing.deliver_command (h : s.Standing t) (hdistinct : t.Distinct) {c : Command}
    (hc : c.Legible) {m : Metadata} (hm : m.correlationKey? = some key) {p : Posting}
    (hevent : p.event = c.event m) (hbroker : s.broker.Carries t (some (c.topic t, p))) :
    ∃ s' topic answer, s.deliver? = some s' ∧ s'.Standing t ∧
      s'.ledger = (s.ledger.serve (s.instruction c key)).2 ∧ s'.gateway = s.gateway ∧
      s'.now = s.now ∧ s'.broker.Carries t (some (topic, answer)) ∧
      topic ∈ t.outcomesOf c.type ∧
      answer.event.Tells c.type key
        (.ofResult m.requestId s.now (s.ledger.serve (s.instruction c key)).1.outcome) := by
  obtain ⟨idle, hnext, hidle⟩ := hbroker.next?_some hdistinct (c.topic_mem_heardBy t)
  obtain ⟨verdict, store, hjudged, hafter, htopic, htells, hstanding⟩ := h.answer hc hm
  obtain ⟨broker, hpublish, hcarries⟩ := hidle.publish verdict.topic verdict.event
  have hdeliver : s.deliver? = some { s with
      supply := s.supply.draw.2
      backend := ⟨store, s.backend.metrics.countAll verdict.counted⟩
      broker := broker } := by
    obtain rfl := h.topics
    rw [deliver?_eq hnext, accept, judge, hevent]
    simp only [Backend.process, hjudged, hpublish]
  exact ⟨_, _, _, hdeliver, hstanding _ _ _, hafter, rfl, rfl, hcarries, htopic, htells⟩

/-- The gateway takes an outcome to those who wait for its key. -/
theorem Standing.route (h : s.Standing t) {type : RequestType} {e : Event}
    {requestId : Option String} {time : Timestamp} {result : Except LedgerError Result}
    (htells : e.Tells type key (.ofResult requestId time result))
    (hresult : ∀ v, result = .ok v → s.ledger.Records key v ∧ v.type = type) :
    (s.route type e).2 = { s with
        gateway := s.gateway.deliver type key (.ofResult requestId time result) s.now } ∧
      (s.route type e).2.Standing t := by
  have hroute : (s.route type e).2 = { s with
      gateway := s.gateway.deliver type key (.ofResult requestId time result) s.now } := by
    simp only [Bank.route, Gateway.route, htells.key, htells.outcome]
  refine ⟨hroute, ?_⟩
  rw [hroute]
  refine h.of_gateway rfl rfl ⟨rfl, rfl, rfl⟩ fun key' request time' hmem => ?_
  rcases Gateway.mem_deliver hmem with hold | ⟨payload, houtcome, rfl, rfl⟩
  · exact Or.inl hold
  · cases result with
    | error e => cases houtcome
    | ok v =>
        cases houtcome
        obtain ⟨hrecords, rfl⟩ := hresult v rfl
        exact Or.inr ⟨v, hrecords, rfl⟩

/-- An outcome reaches the gateway. -/
theorem Standing.deliver_outcome (h : s.Standing t) (hdistinct : t.Distinct) {topic : String}
    {type : RequestType} (htopic : topic ∈ t.outcomesOf type) {p : Posting}
    {requestId : Option String} {time : Timestamp} {result : Except LedgerError Result}
    (htells : p.event.Tells type key (.ofResult requestId time result))
    (hresult : ∀ v, result = .ok v → s.ledger.Records key v ∧ v.type = type)
    (hbroker : s.broker.Carries t (some (topic, p))) {n : Nat}
    (hwaiting : s.gateway.waiting = .only key ⟨none, n⟩) :
    ∃ s', s.deliver? = some s' ∧ s'.Standing t ∧ s.SameBooks s' ∧ s'.broker.Carries t none ∧
      s'.gateway.waiting =
        .only key ⟨some (Gateway.Outcome.ofResult requestId time result).resolution, n⟩ := by
  obtain ⟨idle, hnext, hidle⟩ :=
    hbroker.next?_some hdistinct (show topic ∈ t.heardBy (.outcomes type) from htopic)
  have hreceived : ({ s with broker := idle } : Bank).Standing t :=
    h.of_gateway rfl rfl ⟨rfl, rfl, rfl⟩ fun _ _ _ hmem => .inl hmem
  obtain ⟨hroute, hstanding⟩ := hreceived.route htells hresult
  refine ⟨_, deliver?_eq hnext, hstanding, ?_, ?_, ?_⟩
  · rw [accept, hroute]
    exact ⟨rfl, rfl, rfl⟩
  · rw [accept, hroute]
    exact hidle
  · rw [accept, hroute]
    change (s.gateway.deliver type key _ s.now).waiting = _
    rw [Gateway.deliver_waiting, hwaiting, Waiting.resolve_only]

/-! ### Leaving -/

/-- A caller whose key has been resolved leaves with what it is told. -/
theorem Standing.finish (h : s.Standing t) {call : Call} (hkey : call.key = key)
    (type : RequestType) {requestId : Option String} {time : Timestamp}
    {result : Except LedgerError Result} {n : Nat}
    (hwaiting : s.gateway.waiting =
      .only key ⟨some (Gateway.Outcome.ofResult requestId time result).resolution, n⟩) :
    ∃ s', s.finish (.waiting type call) = (Result.tell type result, s') ∧ s'.Standing t ∧
      s.SameBooks s' ∧ s'.broker = s.broker ∧
      s'.gateway.waiting = s.gateway.waiting.leave key := by
  have houtcome := Waiting.outcome?_only key
    ⟨some (Gateway.Outcome.ofResult requestId time result).resolution, n⟩
  rw [← hwaiting] at houtcome
  have hleft : ({ s with gateway := s.gateway.leave key } : Bank).Standing t :=
    h.of_gateway rfl rfl ⟨rfl, rfl, rfl⟩ fun _ _ _ hmem => .inl hmem
  cases result with
  | ok v =>
      refine ⟨{ s with gateway := s.gateway.leave key }, ?_, hleft, ⟨rfl, rfl, rfl⟩, rfl, rfl⟩
      rw [Bank.finish, finishCall, Gateway.finish, Gateway.outcome, hkey, houtcome]
      rfl
  | error e =>
      let r : Rejection := ⟨e.code, e.message, requestId, time⟩
      have hfinish : s.finish (.waiting type call) = (Result.tell type (.error e), { s with
          gateway := { s.gateway.leave key with
            memory := s.gateway.memory.afterFailure key (.rejected r) } }) := by
        rw [Bank.finish, finishCall, Gateway.finish, Gateway.outcome, hkey, houtcome]
        change ({ s with gateway := s.gateway.leave key } : Bank).failed key (.rejected r) = _
        rw [failed, hleft.withMemory, hleft.memory]
        rfl
      refine ⟨_, hfinish, ?_, ⟨rfl, rfl, rfl⟩, rfl, rfl⟩
      exact h.of_gateway rfl rfl ⟨rfl, rfl, rfl⟩ fun _ _ _ hmem =>
        .inl (Memory.mem_afterFailure hmem)

end Bank

end KeyedLedger
