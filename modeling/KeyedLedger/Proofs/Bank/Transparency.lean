import KeyedLedger.Proofs.Bank.Course

/-! # A bank answers as its ledger does

Between two calls nobody waits and nothing is on its way. A call from such a state runs to its end,
and is answered exactly as a request made of the ledger itself: with the view of the value that the
ledger answers, or with the code of its error. The ledger is left as that request leaves it. So it
makes no difference what the gateway remembers, for how long, or when it forgets.
-/

namespace KeyedLedger

theorem ServiceError.code_ofCode (code : ErrorCode) (message : String) :
    (ofCode code message).code = code.code := by
  cases code <;> rfl

/-- A caller who waited for a result of its own type is told that. -/
theorem Result.tell_eq {type : RequestType} {result : Except LedgerError Result}
    (h : ∀ v, result = .ok v → v.Legible ∧ v.type = type) :
    (tell type result).mapError ServiceError.code =
      (result.map reply).mapError fun e => e.code.code := by
  cases result with
  | ok v =>
      obtain ⟨hlegible, rfl⟩ := h v rfl
      rw [tell, hlegible.reply_payload]
      rfl
  | error e => exact congrArg Except.error (ServiceError.code_ofCode e.code e.message)

namespace Bank

/-- The gateway forgets what is too old. -/
def purge (s : Bank) : Bank :=
  s.withMemory (s.memory.purge s.now).2

/-- A bank that calls have left, made one after the other. Between them the time may be set, and
what is too old may be forgotten. -/
inductive Reached (t : Topics) : Bank → Prop where
  | empty (timeout : Span) (lifetime : Int) (supply : Supply) :
      Reached t (initial t timeout lifetime supply true).startLedger
  | call {s : Bank} (h : Reached t s) (order : Order) (key requestId : String) :
      Reached t (s.execute order key requestId).2
  | pass {s : Bank} (h : Reached t s) (millis : Int)
      (hclock : Timestamp.yearInRange (s.advance millis).now.date.year = true) :
      Reached t (s.advance millis)
  | forget {s : Bank} (h : Reached t s) : Reached t s.purge

/-- A request made of the ledger itself: the view of its answer or the code of its error, and the
ledger afterwards. -/
def direct (s : Bank) (order : Order) (key : String) : Except String Reply × Ledger :=
  match order.command with
  | .error e => (.error e.code, s.ledger)
  | .ok c =>
    match s.ledger.serve (s.instruction c key) with
    | (report, after) => ((report.outcome.map Result.reply).mapError fun e => e.code.code, after)

/-- Nobody waits, and nothing is on its way. -/
structure Ready (t : Topics) (s : Bank) : Prop where
  standing : s.Standing t
  idle : s.broker.Carries t none
  waiting : s.gateway.waiting = {}

variable {t : Topics} {s : Bank} {key : String} {order : Order}

/-! ## Delivering everything -/

theorem deliverUpTo_idle (h : s.broker.Carries t none) (n : Nat) : s.deliverUpTo n = s := by
  cases n with
  | zero => rfl
  | succ n => rw [deliverUpTo, deliver?_idle h]

theorem settle_idle (h : s.broker.Carries t none) : s.settle = s :=
  deliverUpTo_idle h _

/-- A message that waits, and its answer, are among those that can still be delivered. -/
theorem two_le_deliveries {topic : String} {p : Posting}
    (h : s.broker.Carries t (some (topic, p))) (htopic : topic ∈ t.outcomes ++ t.commands) :
    2 ≤ s.deliveries := by
  have hqueues : s.broker.subscriptions.flatMap Prod.snd =
      Topics.queues (t.outcomes ++ t.commands) (Topics.waitingOn (some (topic, p))) := by
    rw [h.subscriptions, Topics.flatMap_subscriptions]
  have hwaits : p ∈ (Topics.queues (t.outcomes ++ t.commands)
      (Topics.waitingOn (some (topic, p)))).flatMap Queue.waiting := by
    refine List.mem_flatMap.mpr ⟨_, List.mem_map_of_mem htopic, ?_⟩
    simp [Topics.waitingOn]
  have hlength := List.length_pos_of_mem hwaits
  rw [deliveries, hqueues]
  refine Nat.le_trans ?_ (Nat.mul_le_mul_right _ hlength)
  simp [Topics.queues, Topics.outcomes, Topics.accountOutcomes]

/-- A command that is on its way is carried out, and its outcome reaches those who wait. -/
theorem Standing.settle (h : s.Standing t) (hdistinct : t.Distinct) {c : Command} (hc : c.Legible)
    {m : Metadata} (hm : m.correlationKey? = some key) {p : Posting} (hevent : p.event = c.event m)
    (hbroker : s.broker.Carries t (some (c.topic t, p))) {n : Nat}
    (hwaiting : s.gateway.waiting = .only key ⟨none, n⟩) :
    s.settle.Standing t ∧ s.settle.broker.Carries t none ∧
      s.settle.ledger = (s.ledger.serve (s.instruction c key)).2 ∧
      s.settle.gateway.waiting = .only key ⟨some (Gateway.Outcome.ofResult m.requestId s.now
        (s.ledger.serve (s.instruction c key)).1.outcome).resolution, n⟩ := by
  obtain ⟨s₁, topic, answer, hfirst, hstanding, hledger, hgateway, -, hcarries, htopic, htells⟩ :=
    h.deliver_command hdistinct hc hm hevent hbroker
  have hresult : ∀ v, (s.ledger.serve (s.instruction c key)).1.outcome = .ok v →
      s₁.ledger.Records key v ∧ v.type = c.type := by
    rw [hledger]
    exact fun v hv => Ledger.records_of_outcome h.cents h.clock hv
  obtain ⟨s₂, hsecond, hstanding, hbooks, hidle, hresolved⟩ :=
    hstanding.deliver_outcome hdistinct htopic htells hresult hcarries (hgateway ▸ hwaiting)
  have hcommand := Topics.mem_of_heardBy (c.topic_mem_heardBy t)
  have hsettle : s.settle = s₂ := by
    obtain ⟨n, hn⟩ := Nat.exists_eq_add_of_le' (two_le_deliveries hbroker hcommand)
    rw [Bank.settle, hn, deliverUpTo, hfirst]
    dsimp only
    rw [deliverUpTo, hsecond]
    exact deliverUpTo_idle hidle n
  rw [hsettle]
  exact ⟨hstanding, hidle, hbooks.ledger.trans hledger, hresolved⟩

/-! ## One call -/

/-- A value that a command is answered with can be read by the caller of an order of its type. -/
theorem Standing.of_outcome (h : s.Standing t) {c : Command} {v : Result}
    (hv : (s.ledger.serve (s.instruction c key)).1.outcome = .ok v) :
    v.Legible ∧ v.type = c.type := by
  have hclock : Timestamp.yearInRange (s.instruction c key).now.date.year = true := h.clock
  exact ⟨h.written.legible h.cents hclock hv, (Ledger.records_of_outcome h.cents hclock hv).2⟩

/-- A call that joins those who wait runs to its end. -/
theorem Ready.execute_joined (h : s.Ready t) (hdistinct : t.Distinct) {c : Command}
    (hc : order.command = .ok c) (hunknown : s.memory.completed? s.now key = none)
    (requestId : String) :
    (s.execute order key requestId).2.Ready t ∧
      (s.execute order key requestId).1 = Result.tell order.requestType
        (s.ledger.serve (s.instruction c key)).1.outcome ∧
      (s.execute order key requestId).2.ledger = (s.ledger.serve (s.instruction c key)).2 := by
  have hkey : (c.call t key requestId).key = key := rfl
  obtain ⟨s₁, hlook, hstanding, hbooks₁, hbroker, hwaiting₁⟩ :=
    h.standing.look_admitted hc hunknown requestId
  obtain ⟨s₂, hjoin, hstanding, hbooks₂, hbroker₂, hwaiting₂⟩ := hstanding.join hkey
  rw [hwaiting₁, h.waiting, Waiting.join_empty] at hjoin hwaiting₂
  obtain ⟨s₃, p, hpublish, hstanding, hbooks₃, hcarries, hevent, hwaiting₃⟩ :=
    hstanding.publishCall (hbroker₂.trans hbroker ▸ h.idle) c key requestId
  rw [hwaiting₂] at hwaiting₃
  obtain ⟨hsettled, hidle, hafter, hresolved⟩ := hstanding.settle hdistinct
    (Order.valid_of_command hc).2 rfl hevent hcarries hwaiting₃
  obtain ⟨s₄, hfinish, hstanding, hbooks₄, hbroker₄, hwaiting₄⟩ :=
    hsettled.finish hkey order.requestType hresolved
  have hbooks := (hbooks₁.trans hbooks₂).trans hbooks₃
  rw [hbooks.instruction, hbooks.ledger] at hafter hfinish
  have hexecute : s.execute order key requestId = (Result.tell order.requestType
      (s.ledger.serve (s.instruction c key)).1.outcome, s₄) := by
    rw [execute, start_eq, hlook]
    dsimp only
    rw [hjoin]
    dsimp only
    rw [hpublish]
    exact hfinish
  rw [hexecute]
  refine ⟨⟨hstanding, hbroker₄ ▸ hidle, ?_⟩, rfl, hbooks₄.ledger.trans hafter⟩
  rw [hwaiting₄, hresolved]
  exact Waiting.leave_last _

/-- A call from a state between two calls ends in such a state, and is answered as a request made of
the ledger itself. -/
theorem Ready.execute (h : s.Ready t) (hdistinct : t.Distinct) (order : Order)
    (key requestId : String) :
    (s.execute order key requestId).2.Ready t ∧
      ((s.execute order key requestId).1.mapError ServiceError.code,
        (s.execute order key requestId).2.ledger) = s.direct order key := by
  -- A caller that is answered when it looks up its key leaves nothing to be delivered.
  have hanswered : ∀ result, s.look order key requestId = (.answered result, s) →
      s.execute order key requestId = (result, s) := by
    intro result hlook
    rw [Bank.execute, start_eq, hlook]
    simp only [settle_idle h.idle, finish]
  cases hc : order.command with
  | error e =>
      rw [hanswered _ (look_refused hc key requestId), direct, hc]
      exact ⟨h, rfl⟩
  | ok c =>
  have htype : c.type = order.requestType := Order.type_of_command hc
  cases hknown : s.memory.completed? s.now key with
  | some request =>
      -- The ledger would answer from its record what the gateway answers from its memory.
      obtain ⟨v, hrecords, hlook⟩ := h.standing.look_recalled hc hknown requestId
      have hvalid : c.Valid := (Order.valid_of_command hc).1
      rw [hanswered _ hlook, direct, hc, Result.recall]
      refine ⟨h, ?_⟩
      by_cases hsame : v.type = order.requestType
      · have hserve := hrecords.replay (j := s.instruction c key) (htype.trans hsame.symm)
          hvalid rfl
        simp only [hserve, Report.outcome_replay, if_pos hsame]
        rfl
      · obtain ⟨houtcome, hledger⟩ := hrecords.refuse (j := s.instruction c key)
          (fun heq => hsame (heq.trans htype)) hvalid rfl
        rw [if_neg hsame]
        simp only [houtcome, hledger]
        rfl
  | none =>
      obtain ⟨hready, hresult, hledger⟩ := h.execute_joined hdistinct hc hknown requestId
      have hread : ∀ v, (s.ledger.serve (s.instruction c key)).1.outcome = .ok v →
          v.Legible ∧ v.type = c.type := fun v hv => h.standing.of_outcome hv
      have htold := Result.tell_eq hread
      rw [hresult, hledger, ← htype, htold, direct, hc]
      exact ⟨hready, rfl⟩

/-! ## Sequences of calls -/

theorem carries_initial (t : Topics) (timeout : Span) (lifetime : Int) (supply : Supply) :
    (initial t timeout lifetime supply true).startLedger.broker.Carries t none :=
  ⟨rfl, (by decide : 0 < 1024), rfl⟩

theorem ready_empty (t : Topics) (timeout : Span) (lifetime : Int) (supply : Supply) :
    (initial t timeout lifetime supply true).startLedger.Ready t where
  standing := ⟨rfl, rfl, rfl, Ledger.inCents_after [], Ledger.written_empty, rfl,
    fun _ _ _ hmem => absurd hmem List.not_mem_nil⟩
  idle := carries_initial t timeout lifetime supply
  waiting := rfl

theorem purge_sameBooks (s : Bank) : s.SameBooks s.purge := by
  rw [purge, withMemory]
  cases s.second <;> exact ⟨rfl, rfl, rfl⟩

theorem Ready.purge (h : s.Ready t) : s.purge.Ready t := by
  rw [Bank.purge, h.standing.withMemory, h.standing.memory]
  refine ⟨?_, h.idle, h.waiting⟩
  exact h.standing.of_gateway rfl rfl ⟨rfl, rfl, rfl⟩ fun _ _ _ hmem =>
    .inl (List.mem_filter.mp hmem).1

theorem Ready.advance (h : s.Ready t) {millis : Int}
    (hclock : Timestamp.yearInRange (s.advance millis).now.date.year = true) :
    (s.advance millis).Ready t where
  standing := { h.standing with clock := hclock }
  idle := h.idle
  waiting := h.waiting

theorem Reached.ready (hdistinct : t.Distinct) (h : s.Reached t) : s.Ready t := by
  induction h with
  | empty timeout lifetime supply => exact ready_empty t timeout lifetime supply
  | call _ order key requestId ih => exact (ih.execute hdistinct order key requestId).1
  | pass _ millis hclock ih => exact ih.advance hclock
  | forget _ ih => exact ih.purge

/-- Each call of a sequence is answered as a request made of the ledger itself, and leaves the
ledger as that request does. So two banks whose ledgers, clocks and supplies agree answer alike,
whatever their gateways remember. -/
theorem Reached.execute_eq_direct (hdistinct : t.Distinct) (h : s.Reached t) (order : Order)
    (key requestId : String) :
    ((s.execute order key requestId).1.mapError ServiceError.code,
        (s.execute order key requestId).2.ledger) = s.direct order key ∧
      ∀ (s' : Bank) (requestId' : String), s'.Reached t → s'.ledger = s.ledger → s'.now = s.now →
        s'.supply = s.supply →
        (s'.execute order key requestId').1.mapError ServiceError.code =
          (s.execute order key requestId).1.mapError ServiceError.code := by
  have hdirect := ((h.ready hdistinct).execute hdistinct order key requestId).2
  refine ⟨hdirect, fun s' requestId' h' hledger hnow hsupply => ?_⟩
  have hdirect' := ((h'.ready hdistinct).execute hdistinct order key requestId').2
  have hsame : s'.direct order key = s.direct order key := by
    simp only [direct, instruction, hledger, hnow, hsupply]
  exact congrArg Prod.fst (hdirect'.trans (hsame.trans hdirect.symm))

end Bank

namespace Sample

/-- The request for an account in euros. -/
def accountOrder : Order :=
  .openAccount ⟨"CUST1", "EE", ["EUR"]⟩

/-- The command of the request for an account in euros. -/
def accountCommand : Command :=
  .openAccount ⟨customer, country, [.eur]⟩

theorem command_accountOrder : accountOrder.command = .ok accountCommand :=
  rfl

/-- The request to fill that account. -/
def fillOrder : Order :=
  .applyTransaction ⟨toString (identifier 0), Money.ofCents 10000, "EUR", "IN", "rent"⟩

/-- A bank whose gateway remembers nothing for any time. -/
def emptyBank : Bank :=
  (Bank.initial {} ⟨5000⟩ 0 ⟨identifier, 0⟩ true).startLedger.advance 1

theorem reached_emptyBank : emptyBank.Reached {} := by
  refine .pass (.empty _ _ _) 1 ?_
  change Timestamp.yearInRange (Timestamp.start2025.date.later 0).year = true
  rw [Timestamp.later_zero]
  rfl

theorem execute_eq_direct_opened :
    let s := (emptyBank.execute accountOrder "open" "req-1").2
    ((s.execute fillOrder "fill" "req-2").1.mapError ServiceError.code,
        (s.execute fillOrder "fill" "req-2").2.ledger) = s.direct fillOrder "fill" ∧
      (s.purge.execute fillOrder "fill" "req-3").1.mapError ServiceError.code =
        (s.execute fillOrder "fill" "req-2").1.mapError ServiceError.code := by
  intro s
  have hreached : s.Reached {} := .call reached_emptyBank accountOrder "open" "req-1"
  have hbooks := s.purge_sameBooks
  have h := Bank.Reached.execute_eq_direct (by decide) hreached fillOrder "fill" "req-2"
  exact ⟨h.1, h.2 s.purge "req-3" (.forget hreached) hbooks.ledger hbooks.now hbooks.supply⟩

end Sample

end KeyedLedger
