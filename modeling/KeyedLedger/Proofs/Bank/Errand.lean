import KeyedLedger.Proofs.Bank.Origin
import KeyedLedger.Proofs.Bank.Transparency

/-! # The steps of a caller

A caller looks up its key, joins those who wait for it, publishes its command if it is the first of
them, and waits. None of these steps touches the ledger, and nothing is remembered or resolved by
them but what was before, except that a caller that cannot publish gives its key up. So if all that
a gateway knows comes from the ledger, so does what a caller is told.
-/

namespace KeyedLedger

/-- What a caller is answered that looks up its key. -/
def Entry.result? : Entry → Option (Except ServiceError Reply)
  | answered result => some result
  | admitted _ => none

/-- How far a caller has come. One that has waited ends with what it has seen of its key. -/
inductive Errand where
  | outside
  | admitted (call : Call)
  | publishing (call : Call)
  | waiting (call : Call)
  | answered (seen : Option Resolution) (result : Except ServiceError Reply)

namespace Errand

/-- The call that the caller is about to make, or makes. -/
def call? : Errand → Option Call
  | admitted call => some call
  | publishing call => some call
  | waiting call => some call
  | _ => none

/-- A caller takes its next step at a bank. -/
inductive Turn (order : Order) (key requestId : String) (s : Bank) : Errand → Bank → Errand → Prop
  | answered {s' : Bank} {result : Except ServiceError Reply}
      (h : s.look order key requestId = (.answered result, s')) :
      Turn order key requestId s .outside s' (.answered none result)
  | admitted {s' : Bank} {call : Call}
      (h : s.look order key requestId = (.admitted call, s')) :
      Turn order key requestId s .outside s' (.admitted call)
  | lead {s' : Bank} {call : Call} (h : s.join call = (.publisher, s')) :
      Turn order key requestId s (.admitted call) s' (.publishing call)
  | attach {s' : Bank} {call : Call} (h : s.join call = (.attached, s')) :
      Turn order key requestId s (.admitted call) s' (.waiting call)
  | publish {s' : Bank} {call : Call} (h : s.publishCall call = (.ok (), s')) :
      Turn order key requestId s (.publishing call) s' (.waiting call)
  | refuse {s' s'' : Bank} {call : Call} {e : GatewayError} {result : Except ServiceError Reply}
      (h : s.publishCall call = (.error e, s')) (hfailed : s'.failed key e = (result, s'')) :
      Turn order key requestId s (.publishing call) s'' (.answered none result)
  | finish {s' : Bank} {call : Call} {result : Except ServiceError Reply}
      (h : s.finish (.waiting order.requestType call) = (result, s')) :
      Turn order key requestId s (.waiting call) s'
        (.answered (s.gateway.waiting.outcome? key) result)

end Errand

namespace Bank

/-- A completed request is remembered, in either memory. -/
def Remembers (s : Bank) (key : String) (request : Completed) : Prop :=
  ∃ time, (key, .completed request time) ∈ s.gateway.memory.traces ∨
    ∃ m, s.second = some m ∧ (key, .completed request time) ∈ m.traces

/-- A step of a caller. It does not touch the ledger, and neither completed requests nor resolutions
come from it, except that a key may be given up. -/
structure Steps (s s' : Bank) : Prop where
  topics : s'.topics = s.topics
  books : s.SameBooks s'
  remembers : ∀ {key request}, s'.Remembers key request → s.Remembers key request
  seen : ∀ {key r}, s'.gateway.waiting.outcome? key = some r →
    s.gateway.waiting.outcome? key = some r ∨ ∃ reason, r = .aborted reason

theorem Steps.refl (s : Bank) : s.Steps s :=
  ⟨rfl, ⟨rfl, rfl, rfl⟩, id, .inl⟩

theorem Steps.trans {s s' s'' : Bank} (h : s.Steps s') (h' : s'.Steps s'') : s.Steps s'' where
  topics := h'.topics.trans h.topics
  books := h.books.trans h'.books
  remembers hr := h.remembers (h'.remembers hr)
  seen hr := by
    rcases h'.seen hr with hr | haborted
    · exact h.seen hr
    · exact .inr haborted

theorem Steps.of_eq {α : Type} {s s' : Bank} {x : α × Bank} {a : α} (h : s.Steps x.2)
    (hx : x = (a, s')) : s.Steps s' := by
  rwa [hx] at h

theorem remembers_memory {s : Bank} {key : String} {request : Completed} {time : Timestamp}
    (h : (key, .completed request time) ∈ s.memory.traces) : s.Remembers key request := by
  rw [memory] at h
  cases hsecond : s.second with
  | none =>
      rw [hsecond] at h
      exact ⟨time, .inl h⟩
  | some m =>
      rw [hsecond] at h
      exact ⟨time, .inr ⟨m, hsecond, h⟩⟩

/-- Another memory that remembers no more leaves everything else as it is. -/
theorem steps_withMemory (s : Bank) {m : Memory}
    (h : ∀ {key request time}, (key, .completed request time) ∈ m.traces →
      (key, .completed request time) ∈ s.memory.traces) : s.Steps (s.withMemory m) := by
  rcases s with ⟨topics, timeout, now, supply, broker, backend, gateway, _ | old⟩
  · refine ⟨rfl, ⟨rfl, rfl, rfl⟩, ?_, .inl⟩
    rintro key request ⟨time, hmem | ⟨m', hm', -⟩⟩
    · exact remembers_memory (h hmem)
    · cases hm'
  · refine ⟨rfl, ⟨rfl, rfl, rfl⟩, ?_, .inl⟩
    rintro key request ⟨time, hmem | ⟨m', hm', hmem⟩⟩
    · exact ⟨time, .inl hmem⟩
    · cases hm'
      exact remembers_memory (h hmem)

/-- Another gateway with the same memory at which no new resolution is seen. -/
theorem steps_of_gateway {s : Bank} {g : Gateway} {broker : Broker Recipient}
    (hmemory : g.memory = s.gateway.memory)
    (hseen : ∀ {key r}, g.waiting.outcome? key = some r →
      s.gateway.waiting.outcome? key = some r ∨ ∃ reason, r = .aborted reason) :
    s.Steps { s with gateway := g, broker := broker } := by
  refine ⟨rfl, ⟨rfl, rfl, rfl⟩, ?_, hseen⟩
  rintro key request ⟨time, hmem | hsecond⟩
  · exact ⟨time, .inl (hmemory ▸ hmem)⟩
  · exact ⟨time, .inr hsecond⟩

theorem steps_failed (s : Bank) (key : String) (e : GatewayError) : s.Steps (s.failed key e).2 :=
  s.steps_withMemory Memory.mem_afterFailure

theorem steps_look (s : Bank) (order : Order) (key requestId : String) :
    s.Steps (s.look order key requestId).2 := by
  rw [look]
  split
  · exact .refl s
  · split
    · exact .refl s
    · exact s.steps_withMemory Memory.mem_markInFlight

theorem steps_join (s : Bank) (call : Call) : s.Steps (s.join call).2 := by
  refine steps_of_gateway rfl fun {key r} hr => .inl ?_
  change (s.gateway.waiting.join call.key).2.outcome? key = some r at hr
  rwa [Waiting.outcome?_join] at hr

theorem seen_leave {g : Gateway} {call : String} {key : String} {r : Resolution}
    (hr : (g.leave call).waiting.outcome? key = some r) : g.waiting.outcome? key = some r := by
  rw [Gateway.leave_waiting] at hr
  rcases g.waiting.outcome?_leave call key with hsame | hgone
  · rwa [hsame] at hr
  · rw [hgone] at hr
    cases hr

theorem steps_finish (s : Bank) (type : RequestType) (call : Call) :
    s.Steps (s.finish (.waiting type call)).2 := by
  have hleft : s.Steps (s.finishCall call s.timeout).2 := by
    refine steps_of_gateway (g := (s.gateway.outcome call s.timeout).2.leave call.key)
      (s.gateway.outcome_memory call s.timeout) fun {key r} hr => .inl ?_
    have hseen := seen_leave hr
    rwa [Gateway.outcome_waiting] at hseen
  rw [finish]
  rcases hfinish : s.finishCall call s.timeout with ⟨e | payload, s'⟩
  · rw [hfinish] at hleft
    exact hleft.trans (s'.steps_failed call.key e)
  · rw [hfinish] at hleft
    exact hleft

theorem steps_publishCall (s : Bank) (call : Call) : s.Steps (s.publishCall call).2 := by
  rw [publishCall]
  rcases hpublish : s.gateway.publish s.broker call s.now with ⟨e | ⟨⟩, g, broker⟩
  · obtain ⟨cause, rfl, hwaiting⟩ := Gateway.publish_error_waiting hpublish
    have hmemory : g.memory = s.gateway.memory := Gateway.publish_memory hpublish
    refine steps_of_gateway (g := g.leave call.key) hmemory fun {key r} hr => ?_
    have hseen := seen_leave hr
    rw [hwaiting] at hseen
    rcases s.gateway.waiting.outcome?_resolve call.key key cause.resolution with hsame | ⟨-, hnew⟩
    · exact .inl (hsame ▸ hseen)
    · cases hnew.symm.trans hseen
      exact .inr ⟨_, rfl⟩
  · refine steps_of_gateway (Gateway.publish_memory hpublish) fun {key r} hr => .inl ?_
    rwa [Gateway.publish_ok_waiting hpublish] at hr

theorem broker_withMemory (s : Bank) (m : Memory) : (s.withMemory m).broker = s.broker := by
  rw [withMemory]
  split <;> rfl

theorem broker_look (s : Bank) (order : Order) (key requestId : String) :
    (s.look order key requestId).2.broker = s.broker := by
  rw [look]
  split
  · rfl
  · split
    · rfl
    · exact s.broker_withMemory _

theorem broker_of_eq {α : Type} {s s' : Bank} {x : α × Bank} {a : α} (hx : x = (a, s'))
    (h : x.2.broker = s.broker) : s'.broker = s.broker := by
  rwa [hx] at h

theorem broker_join (s : Bank) (call : Call) : (s.join call).2.broker = s.broker :=
  rfl

theorem broker_finish (s : Bank) (type : RequestType) (call : Call) :
    (s.finish (.waiting type call)).2.broker = s.broker := by
  have hleft : (s.finishCall call s.timeout).2.broker = s.broker := rfl
  rw [finish]
  rcases hfinish : s.finishCall call s.timeout with ⟨e | payload, s'⟩ <;> rw [hfinish] at hleft
  · exact (s'.broker_withMemory _).trans hleft
  · exact hleft

/-- What has been published, once a caller has tried to publish its command. -/
theorem record_publishCall (s : Bank) (call : Call) {m : String × Event}
    (hm : m ∈ (s.publishCall call).2.broker.record) : m ∈ s.broker.record ∨
      m = (call.topic, .ofJson call.eventType call.body
        (.forRequest call.key call.requestId call.requestType s.now)) := by
  rw [publishCall, Gateway.publish, Broker.publish] at hm
  by_cases hreachable : s.broker.reachable
  · simp only [hreachable, if_true, List.mem_append, List.mem_singleton] at hm
    exact hm
  · simp only [hreachable] at hm
    exact .inl hm

end Bank

namespace Errand

variable {order : Order} {key requestId : String} {s s' : Bank} {e e' : Errand}

theorem Turn.steps (h : Turn order key requestId s e s' e') : s.Steps s' := by
  cases h with
  | answered h => exact (s.steps_look order key requestId).of_eq h
  | admitted h => exact (s.steps_look order key requestId).of_eq h
  | lead h => exact (s.steps_join _).of_eq h
  | attach h => exact (s.steps_join _).of_eq h
  | publish h => exact (s.steps_publishCall _).of_eq h
  | refuse h hfailed =>
      exact ((s.steps_publishCall _).of_eq h).trans ((Bank.steps_failed _ key _).of_eq hfailed)
  | finish h => exact (s.steps_finish order.requestType _).of_eq h

/-- A caller publishes nothing but the command of its call. -/
theorem Turn.record (h : Turn order key requestId s e s' e') {m : String × Event}
    (hm : m ∈ s'.broker.record) : m ∈ s.broker.record ∨
      ∃ call, e.call? = some call ∧ m = (call.topic, .ofJson call.eventType call.body
        (.forRequest call.key call.requestId call.requestType s.now)) := by
  cases h with
  | answered h =>
      rw [Bank.broker_of_eq h (s.broker_look order key requestId)] at hm
      exact .inl hm
  | admitted h =>
      rw [Bank.broker_of_eq h (s.broker_look order key requestId)] at hm
      exact .inl hm
  | lead h =>
      rw [Bank.broker_of_eq h (s.broker_join _)] at hm
      exact .inl hm
  | attach h =>
      rw [Bank.broker_of_eq h (s.broker_join _)] at hm
      exact .inl hm
  | @publish s' call h =>
      have hrecord := s.record_publishCall call (m := m)
      rw [h] at hrecord
      exact (hrecord hm).imp_right fun hnew => ⟨call, rfl, hnew⟩
  | @refuse s₁ s₂ call e result h hfailed =>
      have hrecord := s.record_publishCall call (m := m)
      rw [h] at hrecord
      rw [Bank.broker_of_eq hfailed (s₁.broker_withMemory _)] at hm
      exact (hrecord hm).imp_right fun hnew => ⟨call, rfl, hnew⟩
  | finish h =>
      rw [Bank.broker_of_eq h (s.broker_finish order.requestType _)] at hm
      exact .inl hm

/-- The call of a caller carries the command of its order. -/
theorem Turn.call (h : Turn order key requestId s e s' e') {call : Call}
    (hcall : e'.call? = some call) : e.call? = some call ∨
      ∃ c, order.command = .ok c ∧ call = c.call s.topics key requestId := by
  cases h with
  | answered h => cases hcall
  | @admitted s' call' h =>
      cases hcall
      rw [Bank.look, order.toCall_eq] at h
      cases hc : order.command with
      | error e =>
          rw [hc] at h
          cases h
      | ok c =>
          rw [hc] at h
          dsimp only [Except.map] at h
          split at h
          · cases h
          · cases h
            exact .inr ⟨c, rfl, rfl⟩
  | lead h => exact .inl hcall
  | attach h => exact .inl hcall
  | publish h => exact .inl hcall
  | refuse h hfailed => cases hcall
  | finish h => cases hcall

end Errand

/-! ## What callers are told -/

/-- All that a bank remembers of keys, and all that it has resolved, comes from a history. -/
structure Bank.Traced (s : Bank) (history : List Instruction) : Prop where
  remembered : ∀ {key request}, s.Remembers key request → request.Traced history key
  resolved : ∀ {key r}, s.gateway.waiting.outcome? key = some r → r.Traced history key

theorem Bank.Steps.traced {s s' : Bank} (h : s.Steps s') {history : List Instruction}
    (ht : s.Traced history) : s'.Traced history where
  remembered hr := ht.remembered (h.remembers hr)
  resolved hr := by
    rcases h.seen hr with hold | ⟨reason, rfl⟩
    · exact ht.resolved hold
    · exact .aborted reason

namespace Errand

/-- A caller that got a reply got that of a value that an instruction under its key came to, and a
caller that saw a rejection was told of it. -/
structure Told (history : List Instruction) (order : Order) (key : String)
    (seen : Option Resolution) (result : Except ServiceError Reply) : Prop where
  reply : ∀ r, result = .ok r → ∃ i v, ({} : Ledger).CarriedOut history i (.ok v) ∧ i.key = key ∧
    v.type = order.requestType ∧ r = v.reply
  traced : ∀ r, seen = some r → r.Traced history key
  rejected : ∀ r, seen = some (.rejected r) → result = .error (.ofCode r.code r.reason)

variable {order : Order} {key requestId : String} {s s' : Bank} {history : List Instruction}
  {result : Except ServiceError Reply}

theorem told_error (e : ServiceError) : Told history order key none (.error e) := by
  refine ⟨fun r hr => ?_, fun r hr => ?_, fun r hr => ?_⟩ <;> cases hr

/-- A payload is read by callers of its own type, as the reply that it was made of. -/
theorem reply_of_payload {v : Result} (hlegible : v.Legible) {type : RequestType} {r : Reply}
    (h : Order.reply type v.payload = .ok r) : v.type = type ∧ r = v.reply := by
  by_cases htype : v.type = type
  · subst htype
    rw [hlegible.reply_payload] at h
    cases h
    exact ⟨rfl, rfl⟩
  · obtain ⟨fault, hfault⟩ := Result.reply_payload_other htype
    rw [hfault] at h
    cases h

theorem told_look (ht : s.Traced history) (htimed : Ledger.Timed history)
    (h : s.look order key requestId = (.answered result, s')) :
    Told history order key none result := by
  refine ⟨fun r hr => ?_, fun r hr => (by cases hr), fun r hr => (by cases hr)⟩
  subst hr
  rw [Bank.look] at h
  split at h
  · cases h
  · split at h
    next known hanswer =>
      have hreply : known.bind (Order.reply order.requestType) = .ok r :=
        Option.some.inj (congrArg (fun x : Entry × Bank => x.1.result?) h)
      obtain ⟨request, hrequest, rfl⟩ := Option.map_eq_some_iff.mp hanswer
      obtain ⟨time, hmem⟩ := Memory.mem_of_completed? hrequest
      obtain ⟨i, v, hcame, hkey, rfl⟩ := ht.remembered (Bank.remembers_memory hmem)
      -- A request of another type than the caller's is remembered, but not told.
      split at hreply
      · obtain ⟨htype, hr⟩ := reply_of_payload (hcame.records htimed).2.2 hreply
        exact ⟨i, v, hcame, hkey, htype, hr⟩
      · cases hreply
    next => cases h

theorem told_finish (ht : s.Traced history) (htimed : Ledger.Timed history) {call : Call}
    (hkey : call.key = key) (h : s.finish (.waiting order.requestType call) = (result, s')) :
    Told history order key (s.gateway.waiting.outcome? key) result := by
  subst hkey
  have hfinish : (s.finish (.waiting order.requestType call)).1 =
      match (s.gateway.outcome call s.timeout).1 with
      | .ok payload => Order.reply order.requestType payload
      | .error e => .error (.ofGateway e) := by
    rw [Bank.finish, Bank.finishCall, Gateway.finish]
    rcases s.gateway.outcome call s.timeout with ⟨e | payload, g⟩ <;> rfl
  rw [h] at hfinish
  dsimp only at hfinish
  cases hseen : s.gateway.waiting.outcome? call.key with
  | none =>
      rw [Gateway.outcome_of_none hseen] at hfinish
      subst hfinish
      exact told_error _
  | some r =>
      have htraced := ht.resolved hseen
      rw [Gateway.outcome_of_some hseen] at hfinish
      subst hfinish
      refine ⟨?_, ?_, ?_⟩
      · intro reply hreply
        cases r with
        | completed payload =>
            obtain ⟨i, v, hcame, hkey, rfl⟩ := htraced.completed
            obtain ⟨htype, hr⟩ := reply_of_payload (hcame.records htimed).2.2 hreply
            exact ⟨i, v, hcame, hkey, htype, hr⟩
        | rejected rejection => cases hreply
        | aborted reason => cases hreply
      · rintro _ ⟨⟩
        exact htraced
      · rintro rejection ⟨⟩
        rfl

/-- A caller that is answered is told so. -/
theorem Turn.told {e e' : Errand} (h : Turn order key requestId s e s' e') (ht : s.Traced history)
    (htimed : Ledger.Timed history) (hcall : ∀ {call}, e.call? = some call → call.key = key)
    {seen : Option Resolution} (hanswered : e' = .answered seen result) :
    Told history order key seen result := by
  cases h with
  | answered h =>
      cases hanswered
      exact told_look ht htimed h
  | refuse h hfailed =>
      cases hanswered
      cases hfailed
      exact told_error _
  | finish h =>
      cases hanswered
      exact told_finish ht htimed (hcall rfl) h
  | _ => cases hanswered

theorem Told.append {seen : Option Resolution} (h : Told history order key seen result)
    (later : List Instruction) : Told (history ++ later) order key seen result where
  reply r hr := by
    obtain ⟨i, v, hcame, hrest⟩ := h.reply r hr
    exact ⟨i, v, hcame.append later, hrest⟩
  traced r hr := (h.traced r hr).append later
  rejected := h.rejected

theorem Turn.ne_outside {e e' : Errand} (h : Turn order key requestId s e s' e') :
    e' ≠ .outside := by
  cases h <;> exact Errand.noConfusion

end Errand

namespace Bank

variable {s s' : Bank} {history : List Instruction}

theorem Traced.congr (h : s.Traced history) (hgateway : s'.gateway = s.gateway)
    (hsecond : s'.second = s.second) : s'.Traced history := by
  refine ⟨fun hr => h.remembered ?_, fun hr => h.resolved ?_⟩
  · rwa [Remembers, hgateway, hsecond] at hr
  · rwa [hgateway] at hr

theorem Traced.append (h : s.Traced history) (later : List Instruction) :
    s.Traced (history ++ later) :=
  ⟨fun hr => (h.remembered hr).append later, fun hr => (h.resolved hr).append later⟩

/-- A message reaches a gateway. -/
theorem Traced.route (h : s.Traced history) (htimed : Ledger.Timed history)
    {issued : String → Command → Prop} {e : Event} (he : e.Traced issued history)
    (type : RequestType) : (s.route type e).2.Traced history := by
  cases he with
  | @command c key m hissued hlegible hm =>
      have hkey : (c.event m).metadata.correlationKey? = some key := hm
      cases hread : Gateway.readOutcome type (c.event m) with
      | ok outcome => exact absurd hread (Gateway.readOutcome_event type hlegible m outcome)
      | error error =>
          have hroute : s.gateway.route type (c.event m) s.now = (.error error, s.gateway) := by
            simp only [Gateway.route, hkey, hread]
          exact h.congr (by rw [Bank.route, hroute]) rfl
  | @outcome _ i result requestId hcame htells =>
      cases hread : Gateway.readOutcome type e with
      | error error =>
          have hroute : s.gateway.route type e s.now = (.error error, s.gateway) := by
            simp only [Gateway.route, htells.key, hread]
          exact h.congr (by rw [Bank.route, hroute]) rfl
      | ok outcome =>
          obtain ⟨rfl, hsame⟩ := Gateway.readOutcome_unique hread htells.outcome
          have hroute : (s.route type e).2.gateway =
              s.gateway.deliver type i.key (.ofResult requestId i.now result) s.now := by
            simp only [Bank.route, Gateway.route, htells.key, hread]
          constructor
          · rintro key request ⟨time, hmem | hsecond⟩
            · rw [hroute] at hmem
              rcases Gateway.mem_deliver hmem with hold | ⟨payload, hanswer, rfl, rfl⟩
              · exact h.remembered ⟨time, .inl hold⟩
              · cases result with
                | error e => cases hanswer
                | ok v =>
                    cases hanswer
                    rcases hsame with rfl | ⟨r, hrejection⟩
                    · refine ⟨i, v, hcame, rfl, ?_⟩
                      rw [(hcame.records htimed).2.1]
                    · cases hrejection
            · exact h.remembered ⟨time, .inr hsecond⟩
          · intro key r hr
            rw [hroute, Gateway.deliver_waiting] at hr
            rcases s.gateway.waiting.outcome?_resolve i.key key
                (Gateway.Outcome.ofResult requestId i.now result).resolution with
              hold | ⟨rfl, hnew⟩
            · exact h.resolved (hold ▸ hr)
            · cases hnew.symm.trans hr
              exact .outcome hcame rfl

end Bank

end KeyedLedger
