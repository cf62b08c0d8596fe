import KeyedLedger.Proofs.Bank.Network
import KeyedLedger.Proofs.Ledger.Publication

/-! # The passage of a call

A call that comes to a gateway where nobody waits, and whose key is not remembered there, can pass
through the network by itself: its command is published and carried out, the outcome is taken to the
gateway, and the caller leaves with it. Then the gateway is free again for the next call.
-/

namespace KeyedLedger

namespace Bank

variable {t : Topics} {s : Bank} {key : String}

/-- A command is published if the broker can be reached. -/
theorem Standing.publishCall_reachable (h : s.Standing t) (hreachable : s.broker.reachable = true)
    (c : Command) (key requestId : String) :
    ∃ s', s.publishCall (c.call t key requestId) = (.ok (), s') ∧ s'.Standing t ∧
      s.SameBooks s' ∧ s'.gateway.waiting = s.gateway.waiting ∧ s'.broker.reachable = true ∧
      s'.broker.record = s.broker.record ++
        [(c.topic t, c.event (.forRequest key requestId c.type.code s.now))] := by
  obtain ⟨htaken, hstill, hrecord⟩ := Broker.publish_reachable hreachable (c.topic t)
    (c.event (.forRequest key requestId c.type.code s.now))
  rcases hpublish : s.broker.publish (c.topic t)
    (c.event (.forRequest key requestId c.type.code s.now)) with ⟨result, broker⟩
  rw [hpublish] at htaken hstill hrecord
  dsimp only at htaken
  subst htaken
  have hcall : s.publishCall (c.call t key requestId) = (.ok (), { s with
      broker := broker
      gateway := { s.gateway with
        metrics := s.gateway.metrics.count (.published c.type.code) } }) := by
    rw [Command.event] at hpublish
    rw [Bank.publishCall, Gateway.publish, Command.call, hpublish]
  refine ⟨_, hcall, ?_, ⟨rfl, rfl, rfl⟩, rfl, hstill, hrecord⟩
  exact h.of_gateway rfl rfl ⟨rfl, rfl, rfl⟩ fun _ _ _ hmem => .inl hmem

/-- A command is carried out, and answered if the broker can be reached. -/
theorem Standing.judgeUnder (h : s.Standing t) (hreachable : s.broker.reachable = true)
    {c : Command} (hc : c.Legible) {m : Metadata} (hm : m.correlationKey? = some key) :
    ∃ s' topic answer, s.judgeUnder (c.event m) .none = s' ∧ s'.Standing t ∧
      s'.ledger = (s.ledger.serve (s.instruction c key)).2 ∧ s'.gateway = s.gateway ∧
      s'.now = s.now ∧ s'.supply = s.supply.draw.2 ∧ s'.broker.reachable = true ∧
      s'.broker.record = s.broker.record ++ [(topic, answer)] ∧ topic ∈ t.outcomesOf c.type ∧
      answer.Tells c.type key
        (.ofResult m.requestId s.now (s.ledger.serve (s.instruction c key)).1.outcome) := by
  have hasked : ({ s with backend := { s.backend with store := s.backend.store.disturb .none } } :
      Bank).Standing t := ⟨h.topics, h.second, rfl, h.cents, h.written, h.clock, h.remembered⟩
  obtain ⟨verdict, store, hjudged, hafter, htopic, htells, hstanding⟩ := hasked.answer hc hm
  obtain ⟨-, hstill, hrecord⟩ :=
    Broker.publish_reachable hreachable verdict.topic verdict.event
  obtain rfl := h.topics
  exact ⟨_, _, _, judgeUnder_of_ok hjudged, hstanding _ _ _, hafter, rfl, rfl, rfl, hstill, hrecord,
    htopic, htells⟩

end Bank

namespace Network

variable {ι κ : Type} [DecidableEq ι] [DecidableEq κ] {client : κ → Client ι}
  {history : List Instruction} {n n' : Network ι κ}

/-- A gateway with one memory at which nobody waits. The store does not fail by itself, and the
broker can be reached. -/
structure Free (n : Network ι κ) (f : ι) : Prop where
  calm : n.bank.backend.store.disturbances = .none
  reachable : n.bank.broker.reachable = true
  second : (n.fronts f).second = none
  waiting : (n.fronts f).gateway.waiting = {}

omit [DecidableEq ι] [DecidableEq κ] in
/-- A sound network is in good standing as it is seen from a free gateway. -/
theorem Sound.standing (h : n.Sound client history) {f : ι} (hfree : n.Free f) :
    (n.seat f).Standing n.bank.topics where
  topics := rfl
  second := hfree.second
  calm := hfree.calm
  cents := by
    change n.bank.ledger.InCents
    rw [h.ledger]
    exact Ledger.inCents_after history
  written := by
    change n.bank.ledger.Written
    rw [h.ledger]
    exact Ledger.written_after h.timed
  clock := h.clock
  remembered key request time hmem := by
    obtain ⟨i, v, hcame, rfl, rfl⟩ := (h.traced f).remembered ⟨time, .inl hmem⟩
    refine ⟨v, ?_, rfl⟩
    change n.bank.ledger.Records _ v
    rw [h.ledger]
    exact (hcame.records h.timed).1

omit [DecidableEq ι] [DecidableEq κ] in
/-- A key without a receipt is not remembered as completed. -/
theorem Sound.unknown (h : n.Sound client history) {f : ι} (hfree : n.Free f) {key : String}
    (hnone : n.bank.ledger.receipt? key = none) :
    (n.seat f).memory.completed? n.bank.now key = none := by
  have hstanding := h.standing hfree
  rw [hstanding.memory]
  cases hknown : (n.seat f).gateway.memory.completed? n.bank.now key with
  | none => rfl
  | some request =>
      obtain ⟨time, hmem⟩ := Memory.mem_of_completed? hknown
      obtain ⟨v, hrecords, -⟩ := hstanding.remembered key request time hmem
      obtain ⟨receipt, hreceipt, -⟩ := hrecords.receipt
      cases hnone.symm.trans hreceipt

/-! ## One caller at one gateway -/

variable {f : ι} {who : κ} {s s' : Bank} {e e' : Errand} {later : List Instruction}

/-- A caller has come to some point at its gateway, and nothing else has happened since. -/
def reaches (n : Network ι κ) (f : ι) (who : κ) (s : Bank) (e : Errand) : Network ι κ :=
  (n.put f s).send who e

theorem seat_reaches : (n.reaches f who s e).seat f = s := by
  simp only [reaches, seat, put, send, Function.update_self]

theorem fronts_reaches : (n.reaches f who s e).fronts f = ⟨s.gateway, s.second⟩ :=
  Function.update_self _ _ _

theorem errand_reaches : (n.reaches f who s e).errand who = e :=
  send_self _ _ _

/-- A caller looks up its key. -/
theorem Run.enter (hout : n.errand who = .outside)
    (hturn : Errand.Turn (client who).order (client who).key (client who).requestId
      (n.seat (client who).front) .outside s e) :
    Run client n [] (n.reaches (client who).front who s e) := by
  rw [← hout] at hturn
  exact Run.refl.tail (.turn hturn)

/-- The caller takes its next step. -/
theorem Run.turn (hrun : Run client n later (n.reaches f who s e)) (hfront : (client who).front = f)
    (hturn : Errand.Turn (client who).order (client who).key (client who).requestId s e s' e') :
    Run client n later (n.reaches f who s' e') := by
  subst hfront
  have hstep : Step client (n.reaches (client who).front who s e) []
      (((n.reaches (client who).front who s e).put (client who).front s').send who e') := by
    refine .turn ?_
    rw [seat_reaches, errand_reaches]
    exact hturn
  have hafter : ((n.reaches (client who).front who s e).put (client who).front s').send who e' =
      n.reaches (client who).front who s' e' := by
    simp only [reaches, put, send, Function.update_idem]
  rw [hafter] at hstep
  have htail := hrun.tail hstep
  rwa [List.append_nil] at htail

/-- A message reaches the ledger. -/
theorem Run.judge (hrun : Run client n later (n.reaches f who s e)) {topic : String} {event : Event}
    (hmem : (topic, event) ∈ s.broker.record) (htopic : topic ∈ s.topics.commands)
    (d : Disturbances) :
    Run client n (later ++ event.instructions s.now s.supply.draw.1 d)
      (n.reaches f who (s.judgeUnder event d) e) :=
  hrun.tail (.judge d hmem htopic)

/-- A message reaches the gateway. -/
theorem Run.route (hrun : Run client n later (n.reaches f who s e)) {topic : String} {event : Event}
    {type : RequestType} (hmem : (topic, event) ∈ s.broker.record)
    (htopic : topic ∈ s.topics.outcomesOf type) :
    Run client n later (n.reaches f who (s.route type event).2 e) := by
  have hstep : Step client (n.reaches f who s e) []
      ((n.reaches f who s e).put f (((n.reaches f who s e).seat f).route type event).2) :=
    .route f type hmem htopic
  have hafter : (n.reaches f who s e).put f (s.route type event).2 =
      n.reaches f who (s.route type event).2 e := by
    simp only [reaches, put, send, Function.update_idem]
  rw [seat_reaches, hafter] at hstep
  have htail := hrun.tail hstep
  rwa [List.append_nil] at htail

/-- A caller whose key is not remembered at a free gateway can publish its command. -/
theorem Sound.exists_published (h : n.Sound client history) (hfree : n.Free (client who).front)
    (hout : n.errand who = .outside) {c : Command} (hc : (client who).order.command = .ok c)
    (hunknown : (n.seat (client who).front).memory.completed? n.bank.now (client who).key =
      none) :
    ∃ s, Run client n [] (n.reaches (client who).front who s
        (.waiting (c.call n.bank.topics (client who).key (client who).requestId))) ∧
      s.Standing n.bank.topics ∧ (n.seat (client who).front).SameBooks s ∧
      s.gateway.waiting = .only (client who).key {} ∧ s.broker.reachable = true ∧
      s.broker.record = n.bank.broker.record ++ [(c.topic n.bank.topics, c.event
        (.forRequest (client who).key (client who).requestId c.type.code n.bank.now))] := by
  obtain ⟨s₁, hlook, hstanding, hbooks₁, hbroker₁, hwaiting₁⟩ :=
    (h.standing hfree).look_admitted hc hunknown (client who).requestId
  obtain ⟨s₂, hjoin, hstanding, hbooks₂, hbroker₂, hwaiting₂⟩ :=
    hstanding.join (c.key_call n.bank.topics (client who).key (client who).requestId)
  have hidle : (n.seat (client who).front).gateway.waiting = {} := hfree.waiting
  rw [hwaiting₁, hidle, Waiting.join_empty] at hjoin hwaiting₂
  have hbroker : s₂.broker = n.bank.broker := hbroker₂.trans hbroker₁
  obtain ⟨s₃, hpublish, hstanding, hbooks₃, hwaiting₃, hreachable, hrecord⟩ :=
    hstanding.publishCall_reachable (hbroker ▸ hfree.reachable) c (client who).key
      (client who).requestId
  have hentered : Run client n [] _ := Run.enter hout (.admitted hlook)
  have hpublished := (hentered.turn rfl (.lead hjoin)).turn rfl (.publish hpublish)
  have hbooks := hbooks₁.trans hbooks₂
  rw [hbroker, hbooks.now] at hrecord
  exact ⟨s₃, hpublished, hstanding, hbooks.trans hbooks₃, hwaiting₃.trans hwaiting₂, hreachable,
    hrecord⟩

/-- A command that has been published can be carried out, and its outcome be taken to the caller who
waits for it. -/
theorem Run.exists_resolved (hrun : Run client n [] (n.reaches f who s e)) {t : Topics}
    (hstanding : s.Standing t) (hreachable : s.broker.reachable = true) {c : Command}
    (hc : c.Legible) {m : Metadata} {key : String} (hm : m.correlationKey? = some key)
    (hmem : (c.topic t, c.event m) ∈ s.broker.record)
    (hwaiting : s.gateway.waiting = .only key {}) :
    ∃ s', Run client n [s.instruction c key] (n.reaches f who s' e) ∧ s'.Standing t ∧
      s'.ledger = (s.ledger.serve (s.instruction c key)).2 ∧ s'.now = s.now ∧
      s'.supply = s.supply.draw.2 ∧
      s'.gateway.waiting = .only key ⟨some (Gateway.Outcome.ofResult m.requestId s.now
        (s.ledger.serve (s.instruction c key)).1.outcome).resolution, 1⟩ ∧
      s'.broker.reachable = true ∧ s.broker.record ⊆ s'.broker.record := by
  obtain ⟨s₁, topic, answer, hjudge, hjudged, hledger, hgateway, hnow, hsupply, hreachable, hrecord,
    htopic, htells⟩ := hstanding.judgeUnder hreachable hc hm
  have hanswer : (topic, answer) ∈ s₁.broker.record := by
    rw [hrecord]
    exact List.mem_append_right _ List.mem_cons_self
  have hresult : ∀ v, (s.ledger.serve (s.instruction c key)).1.outcome = .ok v →
      s₁.ledger.Records key v ∧ v.type = c.type := by
    rw [hledger]
    exact fun v hv => Ledger.records_of_outcome hstanding.cents hstanding.clock hv
  obtain ⟨hroute, hrouted⟩ := hjudged.route htells hresult
  have hserved := hrun.judge hmem (hstanding.topics ▸ c.topic_mem_heardBy t) .none
  rw [hjudge, List.nil_append, Event.instructions_event hc hm] at hserved
  have hresolved := hserved.route hanswer (hjudged.topics ▸ htopic)
  refine ⟨_, hresolved, hrouted, ?_⟩
  rw [hroute]
  refine ⟨hledger, hnow, hsupply, ?_, hreachable, ?_⟩
  · change (s₁.gateway.deliver c.type key _ _).waiting = _
    rw [Gateway.deliver_waiting, hgateway, hwaiting]
    exact congrArg Prod.snd (Waiting.resolve_only _ _)
  · rw [hrecord]
    exact List.subset_append_left _ _

/-- A call passes through the network by itself. -/
structure Passage (client : κ → Client ι) (who : κ) (c : Command) (n n' : Network ι κ) : Prop where
  run : Run client n [n.bank.instruction c (client who).key] n'
  free : n'.Free (client who).front
  topics : n'.bank.topics = n.bank.topics
  now : n'.bank.now = n.bank.now
  supply : n'.bank.supply = n.bank.supply.draw.2
  ledger : n'.bank.ledger = (n.bank.ledger.serve (n.bank.instruction c (client who).key)).2
  answered : ∃ requestId, n'.errand who = .answered
    (some (Gateway.Outcome.ofResult requestId n.bank.now
      (n.bank.ledger.serve (n.bank.instruction c (client who).key)).1.outcome).resolution)
    (Result.tell (client who).order.requestType
      (n.bank.ledger.serve (n.bank.instruction c (client who).key)).1.outcome)
  errand_of_ne : ∀ who', who' ≠ who → n'.errand who' = n.errand who'
  fronts_of_ne : ∀ f, f ≠ (client who).front → n'.fronts f = n.fronts f
  kept : n.bank.broker.record ⊆ n'.bank.broker.record
  published : ∃ m : Metadata, m.correlationKey? = some (client who).key ∧
    (c.topic n.bank.topics, c.event m) ∈ n'.bank.broker.record

/-- A call whose key is not remembered at its gateway can pass, if the gateway is free. -/
theorem Sound.exists_passage (h : n.Sound client history) (who : κ)
    (hfree : n.Free (client who).front)
    (hout : n.errand who = .outside) {c : Command} (hc : (client who).order.command = .ok c)
    (hunknown : (n.seat (client who).front).memory.completed? n.bank.now (client who).key =
      none) : ∃ n', Passage client who c n n' := by
  have hlegible := (Order.valid_of_command hc).2
  -- It is published, carried out and resolved, and its caller leaves.
  obtain ⟨s₁, hrun, hstanding, hbooks, hwaiting, hreachable, hrecord⟩ :=
    h.exists_published hfree hout hc hunknown
  have hcommand := List.mem_append_right n.bank.broker.record (List.mem_singleton_self
    (c.topic n.bank.topics, c.event
      (.forRequest (client who).key (client who).requestId c.type.code n.bank.now)))
  rw [← hrecord] at hcommand
  obtain ⟨s₂, hrun, hstanding, hledger, hnow, hsupply, hwaiting, hreachable, hkept⟩ :=
    hrun.exists_resolved hstanding hreachable hlegible rfl hcommand hwaiting
  rw [hbooks.instruction, hbooks.ledger] at hledger
  rw [hbooks.instruction] at hrun
  rw [hbooks.instruction, hbooks.ledger, hbooks.now] at hwaiting
  obtain ⟨s₃, hfinish, hstanding, hbooks₃, hbroker, hleft⟩ :=
    hstanding.finish (c.key_call n.bank.topics (client who).key (client who).requestId)
      (client who).order.requestType hwaiting
  have hseen := congrArg (fun w => Waiting.outcome? w (client who).key) hwaiting
  rw [Waiting.outcome?_only] at hseen
  rw [hwaiting, Waiting.leave_last] at hleft
  have hdone := hrun.turn rfl (.finish hfinish)
  rw [hseen] at hdone
  refine ⟨_, hdone, ⟨hstanding.calm, hbroker ▸ hreachable, ?_, ?_⟩, hstanding.topics,
    ?_, ?_, ?_, ?_, fun who' hne => send_of_ne _ _ hne,
    fun f hne => Function.update_of_ne hne _ _, ?_, ?_⟩
  · rw [fronts_reaches]
    exact hstanding.second
  · rw [fronts_reaches]
    exact hleft
  · exact hbooks₃.now.trans (hnow.trans hbooks.now)
  · exact hbooks₃.supply.trans (hsupply.trans (by rw [hbooks.supply]; rfl))
  · exact hbooks₃.ledger.trans hledger
  · exact ⟨_, errand_reaches⟩
  · change n.bank.broker.record ⊆ s₃.broker.record
    rw [hbroker]
    exact List.Subset.trans (hrecord ▸ List.subset_append_left _ _) hkept
  · refine ⟨.forRequest (client who).key (client who).requestId c.type.code n.bank.now, rfl, ?_⟩
    change _ ∈ s₃.broker.record
    rw [hbroker]
    exact hkept hcommand

omit [DecidableEq ι] [DecidableEq κ] in
/-- A value that an instruction comes to in a sound network is recorded, and can be read by the
callers of its type. -/
theorem Sound.records_of_outcome (h : n.Sound client history) {i : Instruction}
    (hclock : Timestamp.yearInRange i.now.date.year = true) {v : Result}
    (hv : (n.bank.ledger.serve i).1.outcome = .ok v) :
    (n.bank.ledger.serve i).2.Records i.key v ∧ v.type = i.command.type ∧ v.Legible := by
  have hcame := Ledger.carriedOut_last {} history i
  rw [h.ledger] at hv ⊢
  rw [hv] at hcame
  rw [← Ledger.after_concat]
  exact hcame.records (h.timed.append (by simpa [Ledger.Timed] using hclock))

/-- A call whose command comes to a value is answered with the reply to it. -/
theorem Passage.success {c : Command} (h : Passage client who c n n')
    (hsound : n.Sound client history) (hc : (client who).order.command = .ok c) {v : Result}
    (hv : (n.bank.ledger.serve (n.bank.instruction c (client who).key)).1.outcome = .ok v) :
    n'.bank.ledger.Records (client who).key v ∧
      ∃ seen, n'.errand who = .answered seen (.ok v.reply) := by
  obtain ⟨hrecords, htype, hlegible⟩ := hsound.records_of_outcome hsound.clock hv
  obtain ⟨requestId, hanswered⟩ := h.answered
  have hreply := hlegible.reply_payload
  rw [htype.trans (Order.type_of_command hc)] at hreply
  rw [hv, Result.tell, hreply] at hanswered
  rw [h.ledger]
  exact ⟨hrecords, _, hanswered⟩

end Network

end KeyedLedger
