import KeyedLedger.Proofs.Bank.Actions
import KeyedLedger.Proofs.Bank.Republication

/-! # Metrics count what happens

What is stored and what has happened can be read off the metrics, whatever is done at a bank. Of
each direction as many transactions are counted as are stored, and a command is counted as one of
them, or is refused and counted under its code, or opens an account, or is replayed. The gateway
counts the commands that the broker takes, the calls that end in a timeout, and the events that
reach nobody.
-/

namespace KeyedLedger

theorem RequestType.domain_injective : Function.Injective RequestType.domain := by
  intro a b h
  cases a <;> cases b <;> simp_all [domain]

/-! ## Series of occurrences -/

namespace Occurrence

/-- What is counted. -/
def series : Occurrence → List Series
  | offered call (.ok ()) => [.published call.requestType]
  | offered _ (.error _) => []
  | ended call (.error (.timeout _ _)) => [.timedOut call.requestType]
  | ended _ _ => []
  | judged _ treatment => treatment.elim [] Treatment.series
  | routed type event waited =>
    match event.metadata.correlationKey? with
    | none => [.uncorrelated type.domain]
    | some _ => if Gateway.isOutcome type event && !waited then [.uncorrelated type.domain] else []

theorem count_published (h : Occurrence) (requestType : String) :
    h.series.count (.published requestType) = if h.publishes requestType then 1 else 0 := by
  fun_cases series h <;> simp [publishes, List.count_singleton]
  case case5 treatment => rcases treatment with _ | _ | _ <;> simp [Treatment.series]

theorem count_timedOut (h : Occurrence) (requestType : String) :
    h.series.count (.timedOut requestType) = if h.timesOut requestType then 1 else 0 := by
  fun_cases series h <;> simp_all [timesOut, List.count_singleton]
  case case5 treatment => rcases treatment with _ | _ | _ <;> simp [Treatment.series]

theorem count_applied (h : Occurrence) (direction : Direction) :
    h.series.count (.applied direction) = if h.treats (.moved direction) then 1 else 0 := by
  fun_cases series h <;> simp [treats]
  case case5 treatment =>
    rcases treatment with _ | _ | _ <;> simp [Treatment.series, List.count_singleton]

theorem count_rejected (h : Occurrence) (code : ErrorCode) :
    h.series.count (.rejected code) = if h.treats (.refused code) then 1 else 0 := by
  fun_cases series h <;> simp [treats]
  case case5 treatment =>
    rcases treatment with _ | _ | _ <;> simp [Treatment.series, List.count_singleton]

theorem count_uncorrelated (h : Occurrence) (type : RequestType) :
    h.series.count (.uncorrelated type.domain) =
      (if h.isKeyless type then 1 else 0) + if h.isMissed type then 1 else 0 := by
  fun_cases series h <;>
    simp_all [isKeyless, isMissed, List.count_singleton, RequestType.domain_injective.eq_iff]
  case case5 treatment => rcases treatment with _ | _ | _ <;> simp [Treatment.series]

variable {x : Series} {p q : Occurrence → Bool}

/-- A series that is counted for occurrences of two kinds is counted as often as there are any. -/
theorem count_flatMap_series_add
    (h : ∀ a : Occurrence, a.series.count x = (if p a then 1 else 0) + if q a then 1 else 0)
    (log : List Occurrence) : (log.flatMap series).count x = log.countP p + log.countP q := by
  induction log with
  | nil => rfl
  | cons a rest ih =>
      rw [List.flatMap_cons, List.count_append, h, ih, List.countP_cons, List.countP_cons]
      omega

theorem count_flatMap_series (h : ∀ a : Occurrence, a.series.count x = if p a then 1 else 0)
    (log : List Occurrence) : (log.flatMap series).count x = log.countP p := by
  rw [count_flatMap_series_add (q := fun _ => false) h, List.countP_false, Function.const_apply,
    Nat.add_zero]

end Occurrence

/-! ## One action -/

namespace Bank

/-- The ledger and the gateway each count series of their own. -/
structure Apart (s : Bank) : Prop where
  backend : s.backend.metrics.Of true
  gateway : s.gateway.metrics.Of false

theorem Apart.value_metrics {s : Bank} (h : s.Apart) (x : Series) :
    s.metrics.value x = s.backend.metrics.value x + s.gateway.metrics.value x := by
  simp only [Metrics.value, metrics, List.lookup_append]
  cases hx : x.ofLedger with
  | true => rw [h.gateway.lookup_eq_none (by rw [hx]; decide), Option.or_none]; rfl
  | false =>
      rw [h.backend.lookup_eq_none (by rw [hx]; decide), Option.none_or, Option.getD_none,
        Nat.zero_add]

/-- What happens between two states of a bank is what is counted and stored meanwhile. -/
structure Tallies (s s' : Bank) (log : List Occurrence) : Prop where
  apart : s.Apart → s'.Apart
  value : ∀ x, x ≠ .pending → s'.backend.metrics.value x + s'.gateway.metrics.value x =
    s.backend.metrics.value x + s.gateway.metrics.value x +
      (log.flatMap Occurrence.series).count x
  transactions : ∀ direction, s'.ledger.transactions.countP (fun t => t.direction = direction) =
    s.ledger.transactions.countP (fun t => t.direction = direction) +
      log.countP (Occurrence.treats (.moved direction))
  receipts : s'.ledger.receipts.countP (fun r => r.requestType = RequestType.openAccount.code) =
    s.ledger.receipts.countP (fun r => r.requestType = RequestType.openAccount.code) +
      log.countP (Occurrence.treats .opened)
  judged : ∀ event treatment, .judged event treatment ∈ log →
    treatment.isSome = event.isKeyedCommand

namespace Tallies

variable {s s' s'' : Bank} {first second : List Occurrence}

theorem refl (s : Bank) : s.Tallies s [] :=
  ⟨id, fun _ _ => rfl, fun _ => rfl, rfl, nofun⟩

theorem trans (h : s.Tallies s' first) (h' : s'.Tallies s'' second) :
    s.Tallies s'' (first ++ second) where
  apart hs := h'.apart (h.apart hs)
  value x hx := by
    rw [h'.value x hx, h.value x hx, List.flatMap_append, List.count_append, Nat.add_assoc]
  transactions direction := by
    rw [h'.transactions, h.transactions, List.countP_append, Nat.add_assoc]
  receipts := by rw [h'.receipts, h.receipts, List.countP_append, Nat.add_assoc]
  judged event treatment hmem := by
    rcases List.mem_append.mp hmem with hfirst | hsecond
    · exact h.judged event treatment hfirst
    · exact h'.judged event treatment hsecond

/-- What does not reach the ledger is for the gateway to count. -/
theorem of_gateway {h : List Occurrence} (hbackend : s'.backend.metrics = s.backend.metrics)
    (hledger : s'.ledger = s.ledger)
    (hgains : Metrics.Gains false s.gateway.metrics s'.gateway.metrics
      (h.flatMap Occurrence.series))
    (hunjudged : ∀ event treatment, .judged event treatment ∉ h) : s.Tallies s' h := by
  have hnone : ∀ treatment, h.countP (Occurrence.treats treatment) = 0 := by
    refine fun treatment => List.countP_eq_zero.mpr fun a ha => ?_
    cases a with
    | judged event treated => exact absurd ha (hunjudged event treated)
    | _ => exact Bool.false_ne_true
  refine ⟨fun hs => ⟨hbackend ▸ hs.backend, hgains.keeps hs.gateway⟩, fun x hx => ?_,
    fun direction => ?_, ?_, fun event treatment hmem => absurd hmem (hunjudged event treatment)⟩
  · rw [hbackend, hgains.value x hx, Nat.add_assoc]
  · rw [hledger, hnone, Nat.add_zero]
  · rw [hledger, hnone, Nat.add_zero]

/-- Most of what is done is not counted. -/
theorem of_quiet (hbackend : s'.backend.metrics = s.backend.metrics)
    (hledger : s'.ledger = s.ledger) (hgateway : s'.gateway.metrics = s.gateway.metrics) :
    s.Tallies s' [] := by
  refine of_gateway hbackend hledger ?_ fun _ _ => List.not_mem_nil
  rw [hgateway]
  exact .refl s.gateway.metrics

end Tallies

/-- A message that reaches the ledger is counted and stored as it is treated. -/
theorem tallies_judge (s : Bank) (event : Event) :
    s.Tallies (s.judge event).2
      [.judged event (s.backend.store.treatment? event s.now s.supply.draw.1)] := by
  have hbackend : (s.judge event).2.backend =
      (s.backend.process s.broker s.topics event s.now s.supply.draw.1).2.1 := rfl
  have hgateway : (s.judge event).2.gateway = s.gateway := rfl
  have hledger : (s.judge event).2.ledger =
      (s.backend.store.answer s.topics event s.now s.supply.draw.1).2.ledger := by
    rw [ledger, hbackend, Backend.ledger_process]
  have hgains := s.backend.process_gains s.broker s.topics event s.now s.supply.draw.1
  have htreated := (s.backend.store.answer_treated s.topics event s.now s.supply.draw.1).1
  rw [← hbackend] at hgains
  rw [← hledger] at htreated
  refine ⟨fun hs => ⟨hgains.keeps hs.backend, hs.gateway⟩, fun x hx => ?_, fun direction => ?_, ?_,
    fun event' treatment hmem => ?_⟩
  · rw [hgains.value x hx, hgateway, Nat.add_right_comm, List.flatMap_singleton]
    rfl
  · rw [htreated.countP_transactions direction, List.countP_singleton]
    simp only [Occurrence.treats, decide_eq_true_eq]
    rfl
  · rw [htreated.countP_receipts, List.countP_singleton]
    simp only [Occurrence.treats, decide_eq_true_eq]
    rfl
  · cases List.mem_singleton.mp hmem
    exact Store.isSome_treatment? s.backend.store event s.now s.supply.draw.1

/-- A read shows an account and changes nothing. -/
theorem tallies_find (s : Bank) (id : Identifier) : s.Tallies (s.find id).2 [] := by
  refine .of_quiet rfl ?_ rfl
  rw [ledger, s.find_store id]
  rfl

theorem tallies_account (s : Bank) (raw : String) : s.Tallies (s.account raw).2 [] := by
  rw [account]
  cases readAccountId raw with
  | error e => exact .refl s
  | ok id => exact s.tallies_find id

theorem tallies_transactions (s : Bank) (raw : String) : s.Tallies (s.transactions raw).2 [] := by
  rw [transactions]
  cases readAccountId raw with
  | error e => exact .refl s
  | ok id =>
    have hfound := s.tallies_find id
    rcases hfind : s.find id with ⟨e | a, s'⟩ <;> rw [hfind] at hfound <;> simp only [hfind]
    · exact hfound
    · have hread := s'.backend.store.read_cases .readTransactions fun l => l.transactionsOf id
      refine hfound.trans (.of_quiet rfl ?_ rfl)
      change (s'.backend.store.transactionsOf id).2.ledger = s'.ledger
      rw [Store.transactionsOf, hread.1]
      rfl

/-- Every action is counted and stored as what happens by it. -/
theorem tallies_perform (s : Bank) (action : Action) :
    s.Tallies (s.perform action) (s.occurrences action) := by
  cases action with
  | join call => exact .of_gateway rfl rfl (s.gateway.join_gains call.key) nofun
  | publish call =>
      refine .of_gateway rfl rfl ?_ (by simp [occurrences])
      have hgains := s.gateway.publish_gains s.broker call s.now
      rw [occurrences, List.flatMap_singleton]
      rcases hanswer : (s.broker.publish call.topic (call.event s.now)).1 with e | ⟨⟩ <;>
        rw [hanswer] at hgains <;> exact hgains
  | hear call timeout =>
      refine .of_gateway rfl rfl ?_ (by simp [occurrences])
      have hgains := s.gateway.outcome_gains call timeout
      rw [occurrences, List.flatMap_singleton]
      rcases hresult : (s.gateway.outcome call timeout).1 with e | _ <;>
        rw [hresult] at hgains
      · cases e <;> exact hgains
      · exact hgains
  | leave key => exact .of_gateway rfl rfl (s.gateway.leave_gains key) nofun
  | judge event => exact s.tallies_judge event
  | route type event =>
      refine .of_gateway rfl rfl ?_ (by simp [occurrences])
      have hgains := s.gateway.route_gains type event s.now
      rw [occurrences, List.flatMap_singleton, Occurrence.series]
      cases hkey : event.metadata.correlationKey? <;> rw [hkey] at hgains <;> exact hgains
  | disturb d => exact .of_quiet rfl rfl rfl
  | account raw => exact s.tallies_account raw
  | transactions raw => exact s.tallies_transactions raw
  | traffic broker => exact .of_quiet rfl rfl rfl
  | remember m =>
      rcases s with ⟨topics, timeout, now, supply, broker, backend, gateway, _ | old⟩ <;>
        exact .of_quiet rfl rfl rfl
  | openSecond => exact .of_quiet rfl rfl rfl
  | pass millis => exact .of_quiet rfl rfl rfl
  | draw => exact .of_quiet rfl rfl rfl

/-! ## All actions -/

theorem tallies_after (s : Bank) (actions : List Action) :
    s.Tallies (s.after actions) (s.log actions) := by
  induction actions generalizing s with
  | nil => exact .refl s
  | cons action rest ih => exact (s.tallies_perform action).trans (ih (s.perform action))

end Bank

namespace Occurrence

/-- Each way to treat a command. -/
def ways : List Treatment :=
  [.moved .credit, .moved .debit, .opened, .replayed] ++ ErrorCode.all.map .refused

/-- A command is treated in exactly one of the ways, and no other message is treated in any. -/
theorem ite_isCommand {a : Occurrence} (h : ∀ event treatment, a = judged event treatment →
    treatment.isSome = event.isKeyedCommand) :
    (if a.isCommand then 1 else 0) = (ways.map fun way => if a.treats way then 1 else 0).sum := by
  cases a with
  | judged event treatment =>
      rw [isCommand, ← h event treatment rfl]
      rcases treatment with _ | (_ | _) | _ | _ | (_ | _ | _ | _ | _ | _) <;> rfl
  | _ => rfl

/-- Commands are as many as those that are treated in one way or another. -/
theorem countP_isCommand {log : List Occurrence}
    (h : ∀ event treatment, .judged event treatment ∈ log →
      treatment.isSome = event.isKeyedCommand) :
    log.countP isCommand = (ways.map fun way => log.countP (treats way)).sum := by
  induction log with
  | nil => rfl
  | cons a rest ih =>
      have ha : ∀ event treatment, a = judged event treatment →
          treatment.isSome = event.isKeyedCommand := by
        rintro event treatment rfl
        exact h event treatment List.mem_cons_self
      have hrest := ih fun event treatment hmem => h event treatment (List.mem_cons_of_mem a hmem)
      simp only [List.countP_cons]
      rw [List.sum_map_add, hrest, ite_isCommand ha]

end Occurrence

namespace Bank

/-- What has been counted is what is stored and what has happened. -/
structure CountsWell (s : Bank) (log : List Occurrence) : Prop where
  /-- Of each direction as many transactions are counted as are stored, -/
  applied : ∀ direction, s.metrics.value (.applied direction) =
    s.ledger.transactions.countP fun t => t.direction = direction
  /-- and under each code as many refusals as there have been. -/
  rejected : ∀ code, s.metrics.value (.rejected code) =
    log.countP (Occurrence.treats (.refused code))
  /-- A command under a key is treated in one way, and another message in none. -/
  judged : ∀ event treatment, .judged event treatment ∈ log →
    treatment.isSome = event.isKeyedCommand
  /-- So each of the commands moves a balance and is counted, or opens an account and is stored, or
  is replayed, or is refused and counted. -/
  commands : log.countP Occurrence.isCommand =
    s.metrics.value (.applied .credit) + s.metrics.value (.applied .debit) +
      s.ledger.receipts.countP (fun r => r.requestType = RequestType.openAccount.code) +
      log.countP (Occurrence.treats .replayed) +
      (ErrorCode.all.map fun code => s.metrics.value (.rejected code)).sum
  /-- Of each type as many commands are counted as the broker has taken, -/
  published : ∀ requestType, s.metrics.value (.published requestType) =
    log.countP (Occurrence.publishes requestType)
  /-- and as many timeouts as calls have ended in. -/
  timedOut : ∀ requestType, s.metrics.value (.timedOut requestType) =
    log.countP (Occurrence.timesOut requestType)
  /-- Of each domain the events without a key are counted, and the outcomes that nobody waited for.
  -/
  uncorrelated : ∀ type : RequestType, s.metrics.value (.uncorrelated type.domain) =
    log.countP (Occurrence.isKeyless type) + log.countP (Occurrence.isMissed type)

/-- Nothing has been counted or stored yet. -/
structure Blank (s : Bank) : Prop where
  ledger : s.ledger = {}
  backend : s.backend.metrics = {}
  gateway : s.gateway.metrics = {}

variable {s s' : Bank} {log : List Occurrence} {x : Series}

theorem Blank.apart (h : s.Blank) : s.Apart where
  backend := by
    rw [h.backend]
    exact nofun
  gateway := by
    rw [h.gateway]
    exact nofun

/-- What has been counted since then has happened since then. -/
theorem Tallies.value_metrics (h : s.Tallies s' log) (hblank : s.Blank) (hx : x ≠ .pending) :
    s'.metrics.value x = (log.flatMap Occurrence.series).count x := by
  rw [(h.apart hblank.apart).value_metrics, h.value x hx, hblank.backend, hblank.gateway]
  exact Nat.zero_add _

theorem Tallies.value_applied (h : s.Tallies s' log) (hblank : s.Blank) (direction : Direction) :
    s'.metrics.value (.applied direction) = log.countP (Occurrence.treats (.moved direction)) :=
  (h.value_metrics hblank (by simp)).trans
    (Occurrence.count_flatMap_series (Occurrence.count_applied · direction) log)

theorem Tallies.value_rejected (h : s.Tallies s' log) (hblank : s.Blank) (code : ErrorCode) :
    s'.metrics.value (.rejected code) = log.countP (Occurrence.treats (.refused code)) :=
  (h.value_metrics hblank (by simp)).trans
    (Occurrence.count_flatMap_series (Occurrence.count_rejected · code) log)

theorem Tallies.countsWell (h : s.Tallies s' log) (hblank : s.Blank) : s'.CountsWell log := by
  refine ⟨fun direction => ?_, h.value_rejected hblank, h.judged, ?_, fun requestType => ?_,
    fun requestType => ?_, fun type => ?_⟩
  · rw [h.value_applied hblank, h.transactions, hblank.ledger]
    exact (Nat.zero_add _).symm
  · have hopened : log.countP (Occurrence.treats .opened) =
        s'.ledger.receipts.countP fun r => r.requestType = RequestType.openAccount.code := by
      rw [h.receipts, hblank.ledger]
      exact (Nat.zero_add _).symm
    simp only [h.value_applied hblank, h.value_rejected hblank, ← hopened]
    rw [Occurrence.countP_isCommand h.judged, Occurrence.ways, List.map_append, List.sum_append,
      List.map_map]
    simp only [List.map_cons, List.map_nil, List.sum_cons, List.sum_nil, Function.comp_def]
    omega
  · rw [h.value_metrics hblank (by simp),
      Occurrence.count_flatMap_series (Occurrence.count_published · requestType)]
  · rw [h.value_metrics hblank (by simp),
      Occurrence.count_flatMap_series (Occurrence.count_timedOut · requestType)]
  · rw [h.value_metrics hblank (by simp),
      Occurrence.count_flatMap_series_add (Occurrence.count_uncorrelated · type)]

/-- Whatever is done at a bank in which nothing had happened, its metrics count what happens. -/
theorem metrics_count_occurrences (topics : Topics) (timeout : Span) (lifetime : Int)
    (supply : Supply) (reachable : Bool) (actions : List Action) :
    ((initial topics timeout lifetime supply reachable).after actions).CountsWell
      ((initial topics timeout lifetime supply reachable).log actions) :=
  (tallies_after _ actions).countsWell ⟨rfl, rfl, rfl⟩

end Bank

namespace Sample

/-- A transaction that says nothing. -/
def mute : Call :=
  ⟨"transactions.commands", "fill", "req-1", "TRANSACTION_CREATE", ApplyTransaction.eventType,
    .null⟩

/-- A command that cannot be read reaches the ledger twice, and a caller waits in vain. -/
example (supply : Supply) (timeout : Span) :
    ((Bank.initial {} timeout 0 supply true).after [.join mute, .publish mute, .judge garbled,
      .judge garbled, .hear mute timeout, .leave mute.key]).metrics.values =
      [(.rejected .validationFailed, 2), (.pending, 0), (.published "TRANSACTION_CREATE", 1),
        (.timedOut "TRANSACTION_CREATE", 1)] :=
  rfl

end Sample

end KeyedLedger
