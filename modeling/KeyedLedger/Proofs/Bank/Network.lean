import KeyedLedger.Proofs.Bank.Errand

/-! # Gateways over one ledger

Several gateways, each with a memory and with callers of its own, share a broker and a ledger. A
message that has been published may reach any recipient of its topic at any time and as often as one
likes, and the store may fail at each of its calls. Whatever a caller, a gateway or a message says
of a key then comes from an instruction that the ledger has carried out under that key.
-/

namespace KeyedLedger

namespace Bank

variable {s : Bank} {e : Event} {d : Disturbances} {store : Store}

/-- The ledger takes a message while its store fails as it is told to. -/
def judgeUnder (s : Bank) (e : Event) (d : Disturbances) : Bank :=
  ({ s with backend := { s.backend with store := s.backend.store.disturb d } }.judge e).2

/-- The ledger publishes its answer. -/
theorem judgeUnder_of_ok {verdict : Verdict}
    (h : (s.backend.store.disturb d).answer s.topics e s.now s.supply.draw.1 =
      (.ok verdict, store)) :
    s.judgeUnder e d = { s with
      supply := s.supply.draw.2
      backend := ⟨store, s.backend.metrics.countAll verdict.counted⟩
      broker := (s.broker.publish verdict.topic verdict.event).2 } := by
  rcases hdraw : s.supply.draw with ⟨draw, supply⟩
  rw [hdraw] at h
  simp only [judgeUnder, judge, hdraw, Backend.process, h]
  rcases s.broker.publish verdict.topic verdict.event with ⟨_ | _, broker⟩ <;> rfl

theorem judgeUnder_of_error {error : VerdictError}
    (h : (s.backend.store.disturb d).answer s.topics e s.now s.supply.draw.1 =
      (.error error, store)) :
    s.judgeUnder e d = { s with
      supply := s.supply.draw.2
      backend := { s.backend with store := store } } := by
  rcases hdraw : s.supply.draw with ⟨draw, supply⟩
  rw [hdraw] at h
  simp only [judgeUnder, judge, hdraw, Backend.process, h]

end Bank

theorem Broker.mem_record_publish {κ : Type} {b : Broker κ} {topic : String} {e : Event}
    {m : String × Event} (h : m ∈ (b.publish topic e).2.record) :
    m ∈ b.record ∨ m = (topic, e) := by
  rw [publish] at h
  split at h
  · simpa using h
  · exact .inl h

/-- Who asks for what, under which key, and at which gateway. -/
structure Client (ι : Type) where
  order : Order
  key : String
  requestId : String
  front : ι

/-- A gateway, which may have a second memory. -/
structure Front where
  gateway : Gateway
  second : Option Memory := none

/-- The ledger and the broker with their gateways and callers. What the gateways share is kept as a
bank, whose own gateway is the one that was used last. -/
structure Network (ι κ : Type) where
  bank : Bank
  fronts : ι → Front
  errand : κ → Errand

namespace Network

variable {ι κ : Type} [DecidableEq ι] [DecidableEq κ]

/-- The bank as it is seen from a gateway. -/
def seat (n : Network ι κ) (f : ι) : Bank :=
  { n.bank with gateway := (n.fronts f).gateway, second := (n.fronts f).second }

/-- Something happens at a gateway. -/
def put (n : Network ι κ) (f : ι) (s : Bank) : Network ι κ :=
  { n with bank := s, fronts := Function.update n.fronts f ⟨s.gateway, s.second⟩ }

/-- A caller comes to some point. -/
def send (n : Network ι κ) (who : κ) (e : Errand) : Network ι κ :=
  { n with errand := Function.update n.errand who e }

/-- A message reaches the ledger. -/
def judge (n : Network ι κ) (e : Event) (d : Disturbances) : Network ι κ :=
  { n with bank := n.bank.judgeUnder e d }

/-- What may happen in the network, with the instructions that the ledger carries out. -/
inductive Step (client : κ → Client ι) (n : Network ι κ) : List Instruction → Network ι κ → Prop
  | turn {who : κ} {s : Bank} {e : Errand}
      (h : Errand.Turn (client who).order (client who).key (client who).requestId
        (n.seat (client who).front) (n.errand who) s e) :
      Step client n [] ((n.put (client who).front s).send who e)
  | judge {topic : String} {e : Event} (d : Disturbances)
      (hmem : (topic, e) ∈ n.bank.broker.record) (htopic : topic ∈ n.bank.topics.commands) :
      Step client n (e.instructions n.bank.now n.bank.supply.draw.1 d) (n.judge e d)
  | route {topic : String} {e : Event} (f : ι) (type : RequestType)
      (hmem : (topic, e) ∈ n.bank.broker.record) (htopic : topic ∈ n.bank.topics.outcomesOf type) :
      Step client n [] (n.put f ((n.seat f).route type e).2)
  | pass (millis : Int)
      (hclock : Timestamp.yearInRange (n.bank.advance millis).now.date.year = true) :
      Step client n [] { n with bank := n.bank.advance millis }
  | purge (f : ι) : Step client n [] (n.put f (n.seat f).purge)
  | openSecond (f : ι) : Step client n [] (n.put f (n.seat f).openSecond)
  | reach (reachable : Bool) :
      Step client n []
        { n with bank := { n.bank with broker := { n.bank.broker with reachable := reachable } } }

/-- What may happen step after step. -/
inductive Run (client : κ → Client ι) (n : Network ι κ) : List Instruction → Network ι κ → Prop
  | refl : Run client n [] n
  | tail {later last : List Instruction} {n' n'' : Network ι κ} (h : Run client n later n')
      (hstep : Step client n' last n'') : Run client n (later ++ last) n''

/-- Nothing has happened yet. -/
structure Fresh (n : Network ι κ) : Prop where
  ledger : n.bank.ledger = {}
  record : n.bank.broker.record = []
  clock : Timestamp.yearInRange n.bank.now.date.year = true
  idle : ∀ f, (n.fronts f).gateway.waiting = {}
  first : ∀ f, (n.fronts f).gateway.memory.traces = []
  second : ∀ {f m}, (n.fronts f).second = some m → m.traces = []
  outside : ∀ who, n.errand who = .outside

/-- Somebody has issued a command under a key. -/
def Issued (n : Network ι κ) (client : κ → Client ι) (key : String) (c : Command) : Prop :=
  ∃ who, n.errand who ≠ .outside ∧ (client who).key = key ∧ (client who).order.command = .ok c

/-- Everything in a network comes from what the ledger has carried out. -/
structure Sound (client : κ → Client ι) (history : List Instruction) (n : Network ι κ) : Prop where
  ledger : n.bank.ledger = ({} : Ledger).after history
  timed : Ledger.Timed history
  clock : Timestamp.yearInRange n.bank.now.date.year = true
  issued : ∀ i ∈ history, n.Issued client i.key i.command
  messages : ∀ m ∈ n.bank.broker.record, m.2.Traced (n.Issued client) history
  traced : ∀ f, (n.seat f).Traced history
  calls : ∀ {who call}, (n.errand who).call? = some call →
    ∃ c, (client who).order.command = .ok c ∧
      call = c.call n.bank.topics (client who).key (client who).requestId
  told : ∀ {who seen result}, n.errand who = .answered seen result →
    Errand.Told history (client who).order (client who).key seen result

variable {client : κ → Client ι} {history : List Instruction} {n n' : Network ι κ}

omit [DecidableEq ι] [DecidableEq κ] in
theorem Fresh.sound (h : n.Fresh) : n.Sound client [] where
  ledger := h.ledger
  timed := Ledger.timed_nil
  clock := h.clock
  issued := List.forall_mem_nil _
  messages := by
    rw [h.record]
    exact List.forall_mem_nil _
  traced f := by
    constructor
    · rintro key request ⟨time, hmem | ⟨m, hm, hmem⟩⟩
      · change _ ∈ (n.fronts f).gateway.memory.traces at hmem
        rw [h.first f] at hmem
        cases hmem
      · rw [h.second hm] at hmem
        cases hmem
    · intro key r hr
      change (n.fronts f).gateway.waiting.outcome? key = some r at hr
      rw [h.idle f] at hr
      cases hr
  calls {who call} hcall := by
    rw [h.outside who] at hcall
    cases hcall
  told {who seen result} hanswered := by
    rw [h.outside who] at hanswered
    cases hanswered

omit [DecidableEq κ] in
/-- Something happens at a gateway that leaves the ledger alone. -/
theorem Sound.put (h : n.Sound client history) {f : ι} {s : Bank}
    (htopics : s.topics = n.bank.topics) (hbooks : (n.seat f).SameBooks s)
    (htraced : s.Traced history)
    (hrecord : ∀ m ∈ s.broker.record, m.2.Traced (n.Issued client) history) :
    (n.put f s).Sound client history where
  ledger := hbooks.ledger.trans h.ledger
  timed := h.timed
  clock := by
    have hclock := h.clock
    change Timestamp.yearInRange s.now.date.year = true
    rwa [hbooks.now]
  issued := h.issued
  messages := hrecord
  traced f' := by
    by_cases hf : f' = f
    · subst hf
      have hfront : (n.put f' s).fronts f' = ⟨s.gateway, s.second⟩ := Function.update_self _ _ _
      exact htraced.congr (by rw [seat, hfront]) (by rw [seat, hfront])
    · have hfront : (n.put f s).fronts f' = n.fronts f' := Function.update_of_ne hf _ _
      exact (h.traced f').congr (by rw [seat, hfront, seat]) (by rw [seat, hfront, seat])
  calls hcall := by
    obtain ⟨c, hc, hcall⟩ := h.calls hcall
    exact ⟨c, hc, by rw [hcall]; exact congrArg (fun t => c.call t _ _) htopics.symm⟩
  told := h.told

omit [DecidableEq κ] in
theorem Sound.put_steps (h : n.Sound client history) {f : ι} {s : Bank}
    (hsteps : (n.seat f).Steps s) (hbroker : s.broker = n.bank.broker) :
    (n.put f s).Sound client history := by
  refine h.put hsteps.topics hsteps.books (hsteps.traced (h.traced f)) ?_
  rw [hbroker]
  exact h.messages

omit [DecidableEq ι] in
theorem send_self (n : Network ι κ) (who : κ) (e : Errand) : (n.send who e).errand who = e :=
  Function.update_self _ _ _

omit [DecidableEq ι] in
theorem send_of_ne (n : Network ι κ) {who who' : κ} (e : Errand) (hne : who' ≠ who) :
    (n.send who e).errand who' = n.errand who' :=
  Function.update_of_ne hne _ _

omit [DecidableEq ι] in
/-- What has been issued stays so as long as nobody is sent back. -/
theorem Issued.send {key : String} {c : Command} (h : n.Issued client key c) {who : κ} {e : Errand}
    (he : e ≠ .outside) : (n.send who e).Issued client key c := by
  obtain ⟨who', hout, hkey, hc⟩ := h
  refine ⟨who', ?_, hkey, hc⟩
  by_cases hwho : who' = who
  · rwa [hwho, send_self]
  · rwa [send_of_ne _ _ hwho]

omit [DecidableEq ι] in
/-- A caller comes to a point that suits its order. -/
theorem Sound.send (h : n.Sound client history) {who : κ} {e : Errand} (he : e ≠ .outside)
    (hcalls : ∀ {call}, e.call? = some call → ∃ c, (client who).order.command = .ok c ∧
      call = c.call n.bank.topics (client who).key (client who).requestId)
    (htold : ∀ {seen result}, e = .answered seen result →
      Errand.Told history (client who).order (client who).key seen result) :
    (n.send who e).Sound client history where
  ledger := h.ledger
  timed := h.timed
  clock := h.clock
  issued i hi := (h.issued i hi).send he
  messages m hm := by
    have hmessage : m.2.Traced ((n.send who e).Issued client) (history ++ []) :=
      (h.messages m hm).mono (fun _ _ hissued => hissued.send he) []
    rwa [List.append_nil] at hmessage
  traced := h.traced
  calls {who' call} hcall := by
    by_cases hwho : who' = who
    · subst hwho
      rw [send_self] at hcall
      exact hcalls hcall
    · rw [send_of_ne _ _ hwho] at hcall
      exact h.calls hcall
  told {who' seen result} hanswered := by
    by_cases hwho : who' = who
    · subst hwho
      rw [send_self] at hanswered
      exact htold hanswered
    · rw [send_of_ne _ _ hwho] at hanswered
      exact h.told hanswered

theorem Sound.turn (h : n.Sound client history) {who : κ} {s : Bank} {e : Errand}
    (hturn : Errand.Turn (client who).order (client who).key (client who).requestId
      (n.seat (client who).front) (n.errand who) s e) :
    ((n.put (client who).front s).send who e).Sound client history := by
  have hsteps := hturn.steps
  have hput : (n.put (client who).front s).Sound client history := by
    refine h.put hsteps.topics hsteps.books (hsteps.traced (h.traced _)) fun m hm => ?_
    rcases hturn.record hm with hold | ⟨call, hcall, rfl⟩
    · exact h.messages m hold
    · obtain ⟨c, hc, rfl⟩ := h.calls hcall
      have hissued : n.Issued client (client who).key c := by
        refine ⟨who, fun hout => ?_, rfl, hc⟩
        rw [hout] at hcall
        cases hcall
      exact .command hissued (Order.valid_of_command hc).2 rfl
  refine hput.send hturn.ne_outside ?_ ?_
  · intro call hcall
    rcases hturn.call hcall with hold | ⟨c, hc, rfl⟩
    · exact hput.calls hold
    · exact ⟨c, hc, congrArg (fun t => c.call t _ _) hsteps.topics.symm⟩
  · intro seen result hanswered
    refine hturn.told (h.traced _) h.timed ?_ hanswered
    intro call hcall
    obtain ⟨c, hc, rfl⟩ := h.calls hcall
    rfl

omit [DecidableEq ι] [DecidableEq κ] in
/-- The history goes on. -/
theorem Sound.append (h : n.Sound client history) {bank : Bank} {last : List Instruction}
    (htopics : bank.topics = n.bank.topics)
    (hledger : bank.ledger = ({} : Ledger).after (history ++ last))
    (hclock : bank.now = n.bank.now) (htimed : Ledger.Timed last)
    (hissued : ∀ i ∈ last, n.Issued client i.key i.command)
    (hrecord : ∀ m ∈ bank.broker.record, m.2.Traced (n.Issued client) (history ++ last)) :
    ({ n with bank := bank } : Network ι κ).Sound client (history ++ last) where
  ledger := hledger
  timed := h.timed.append htimed
  clock := hclock ▸ h.clock
  issued i hi := by
    rcases List.mem_append.mp hi with hi | hi
    · exact h.issued i hi
    · exact hissued i hi
  messages := hrecord
  traced f := ((h.traced f).append last).congr rfl rfl
  calls hcall := by
    obtain ⟨c, hc, hcall⟩ := h.calls hcall
    exact ⟨c, hc, by rw [hcall]; exact congrArg (fun t => c.call t _ _) htopics.symm⟩
  told hanswered := (h.told hanswered).append last

omit [DecidableEq ι] [DecidableEq κ] in
/-- A message reaches the ledger. -/
theorem Sound.judge (h : n.Sound client history) {e : Event}
    (he : e.Traced (n.Issued client) history) (d : Disturbances) :
    (n.judge e d).Sound client
      (history ++ e.instructions n.bank.now n.bank.supply.draw.1 d) := by
  let draw := n.bank.supply.draw.1
  let asked := n.bank.backend.store.disturb d
  have hledger : asked.ledger = ({} : Ledger).after history := h.ledger
  have hold : ∀ last, ∀ m ∈ n.bank.broker.record,
      m.2.Traced (n.Issued client) (history ++ last) :=
    fun last m hm => (h.messages m hm).mono (fun _ _ hissued => hissued) last
  cases he with
  -- A command makes one instruction, and its answer goes to the broker.
  | @command c key m hissued hlegible hm =>
      let i : Instruction := ⟨c, key, n.bank.now, draw, d⟩
      have hcents : asked.ledger.InCents := hledger ▸ Ledger.inCents_after history
      have hwritten : asked.ledger.Written := hledger ▸ Ledger.written_after h.timed
      obtain ⟨verdict, store, hjudged, -, hafter, -, htells⟩ :=
        Store.answer_event hcents hwritten n.bank.topics hlegible
          (n.bank.backend.store.follows_disturb i) hm h.clock
      rw [hledger] at htells
      have htraced : verdict.event.Traced (n.Issued client) (history ++ [i]) :=
        .outcome (Ledger.carriedOut_last {} history i) htells
      rw [Event.instructions_event hlegible hm, Network.judge, Bank.judgeUnder_of_ok hjudged]
      refine h.append rfl ?_ rfl ?_ ?_ fun message hmessage => ?_
      · rw [Ledger.after_concat, ← hledger]
        exact hafter
      · simpa [Ledger.Timed] using h.clock
      · simpa using hissued
      · rcases Broker.mem_record_publish hmessage with hbefore | rfl
        · exact hold [i] message hbefore
        · exact htraced
  -- An outcome makes none, and the ledger refuses it.
  | @outcome _ i result requestId hcame htells =>
      have hinstructions : e.instructions n.bank.now draw d = [] := by
        rw [Event.instructions, Gateway.command?_of_readOutcome htells.outcome]
        cases e.metadata.correlationKey? <;> rfl
      obtain ⟨error, hanswer⟩ :=
        asked.answer_of_readOutcome n.bank.topics htells.outcome n.bank.now draw
      rw [hinstructions, Network.judge, Bank.judgeUnder_of_error hanswer]
      refine h.append rfl ?_ rfl Ledger.timed_nil (List.forall_mem_nil _) (hold [])
      rw [List.append_nil]
      exact hledger

theorem Run.trans {later last : List Instruction} {n'' : Network ι κ}
    (hrun : Run client n later n') (hrun' : Run client n' last n'') :
    Run client n (later ++ last) n'' := by
  induction hrun' with
  | refl => rwa [List.append_nil]
  | tail _ hstep ih =>
      rw [← List.append_assoc]
      exact ih.tail hstep

theorem Step.sound {last : List Instruction} (h : n.Sound client history)
    (hstep : Step client n last n') : n'.Sound client (history ++ last) := by
  cases hstep with
  | judge d hmem htopic => exact h.judge (h.messages _ hmem) d
  | turn hturn =>
      rw [List.append_nil]
      exact h.turn hturn
  | @route topic e f type hmem htopic =>
      rw [List.append_nil]
      refine h.put rfl ⟨rfl, rfl, rfl⟩ ?_ h.messages
      exact (h.traced f).route h.timed (h.messages _ hmem) type
  | purge f =>
      rw [List.append_nil]
      refine h.put_steps ((n.seat f).steps_withMemory fun hmem => ?_)
        ((n.seat f).broker_withMemory _)
      exact (List.mem_filter.mp hmem).1
  | openSecond f =>
      rw [List.append_nil]
      refine h.put_steps ⟨rfl, ⟨rfl, rfl, rfl⟩, ?_, .inl⟩ rfl
      rintro key request ⟨time, hfirst | ⟨m, hm, hmem⟩⟩
      · exact ⟨time, .inl hfirst⟩
      · cases hm
        cases hmem
  | pass millis hclock =>
      rw [List.append_nil]
      exact { h with clock := hclock, traced := fun f => (h.traced f).congr rfl rfl }
  | reach reachable =>
      rw [List.append_nil]
      exact { h with traced := fun f => (h.traced f).congr rfl rfl }

/-- Whatever happens, all comes from what the ledger has carried out. -/
theorem Run.sound {later : List Instruction} (h : n.Sound client history)
    (hrun : Run client n later n') : n'.Sound client (history ++ later) := by
  induction hrun with
  | refl =>
      rw [List.append_nil]
      exact h
  | tail _ hstep ih =>
      rw [← List.append_assoc]
      exact hstep.sound ih

end Network

end KeyedLedger
