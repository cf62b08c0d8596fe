import KeyedLedger.Proofs.Bank.Passage

/-! # Successes under one key

A success comes to its caller through the slot of the key, which the caller may have opened or
joined, from what its gateway remembers, or after the ledger has answered a second command from its
record. In all these ways it shows the value that was committed under the key, as it was when it was
committed, so all successes under the key are written alike.
-/

namespace KeyedLedger

/-- A value that an instruction came to was committed under its key, and its payload is read by the
callers of its type. -/
theorem Ledger.CarriedOut.commits {history : List Instruction} {i : Instruction} {v : Result}
    (h : ({} : Ledger).CarriedOut history i (.ok v)) (htimed : Ledger.Timed history) :
    ({} : Ledger).Commits history i.key v ∧ Order.reply v.type v.payload = .ok v.reply := by
  obtain ⟨hrecords, -, hlegible⟩ := h.records htimed
  exact ⟨commits_of_records htimed hrecords, hlegible.reply_payload⟩

namespace Network

variable {ι κ : Type} [DecidableEq ι] [DecidableEq κ] {client : κ → Client ι}
  {history : List Instruction} {n n₀ : Network ι κ}

/-- What is told, remembered and published of a key agrees with what was committed under it. -/
structure Agrees (client : κ → Client ι) (history : List Instruction) (n : Network ι κ) : Prop where
  /-- Two successes under one key are of one type of request, and are written alike. -/
  same : ∀ {who who' seen seen' reply reply'}, n.errand who = .answered seen (.ok reply) →
    n.errand who' = .answered seen' (.ok reply') → (client who).key = (client who').key →
    (client who).order.requestType = (client who').order.requestType ∧
      reply.toJson.render = reply'.toJson.render
  /-- A success shows the one value that was committed under the key. -/
  success : ∀ {who seen reply}, n.errand who = .answered seen (.ok reply) →
    ∃ v, ({} : Ledger).Commits history (client who).key v ∧
      (∀ w, ({} : Ledger).Commits history (client who).key w → w = v) ∧
      v.type = (client who).order.requestType ∧ reply = v.reply
  /-- A completed request that is remembered can be read by the callers of its type. -/
  remembered : ∀ {f key request}, (n.seat f).Remembers key request →
    ∃ v, ({} : Ledger).Commits history key v ∧ request = ⟨v.type.code, v.payload⟩ ∧
      Order.reply v.type request.payload = .ok v.reply
  /-- So can the payload that a slot has been resolved to, -/
  resolved : ∀ {f key payload},
    (n.fronts f).gateway.waiting.outcome? key = some (.completed payload) →
    ∃ v, ({} : Ledger).Commits history key v ∧ Order.reply v.type payload = .ok v.reply
  /-- and the payload of any outcome that a gateway may read for a type. -/
  read : ∀ {topic e type payload}, (topic, e) ∈ n.bank.broker.record →
    Gateway.readOutcome type e = .ok (.answer payload) →
    ∃ key v, e.metadata.correlationKey? = some key ∧ ({} : Ledger).Commits history key v ∧
      v.type = type ∧ Order.reply type payload = .ok v.reply

omit [DecidableEq ι] [DecidableEq κ] in
theorem Sound.success (h : n.Sound client history) {who : κ} {seen : Option Resolution}
    {reply : Reply} (hanswered : n.errand who = .answered seen (.ok reply)) :
    ∃ v, ({} : Ledger).Commits history (client who).key v ∧
      v.type = (client who).order.requestType ∧ reply = v.reply := by
  obtain ⟨i, v, hcame, hkey, htype, hreply⟩ := (h.told hanswered).reply reply rfl
  exact ⟨v, hkey ▸ (hcame.commits h.timed).1, htype, hreply⟩

omit [DecidableEq ι] [DecidableEq κ] in
/-- An answer that a gateway reads tells what an instruction of its type came to. -/
theorem Sound.read (h : n.Sound client history) {topic : String} {e : Event} {type : RequestType}
    {payload : Json} (hmem : (topic, e) ∈ n.bank.broker.record)
    (hread : Gateway.readOutcome type e = .ok (.answer payload)) :
    ∃ i v, ({} : Ledger).CarriedOut history i (.ok v) ∧
      e.metadata.correlationKey? = some i.key ∧ v.type = type ∧ payload = v.payload := by
  have htraced := h.messages _ hmem
  generalize e = e' at htraced hread
  cases htraced with
  | command hissued hlegible hm =>
      exact absurd hread (Gateway.readOutcome_event type hlegible _ _)
  | @outcome _ i result requestId hcame htells =>
      obtain ⟨hsame, hrest⟩ := Gateway.readOutcome_unique hread htells.outcome
      cases result with
      | error e => cases hsame
      | ok v =>
          cases hsame
          rcases hrest with rfl | ⟨r, hrejection⟩
          · exact ⟨i, v, hcame, htells.key, (hcame.records h.timed).2.1, rfl⟩
          · cases hrejection

omit [DecidableEq ι] [DecidableEq κ] in
theorem Sound.toAgrees (h : n.Sound client history) : n.Agrees client history where
  same {who who' seen seen' reply reply'} hfirst hsecond hkey := by
    obtain ⟨v, hv, htype, rfl⟩ := h.success hfirst
    obtain ⟨w, hw, htype', rfl⟩ := h.success hsecond
    rw [← htype, ← htype', hv.unique (hkey ▸ hw) h.timed]
    exact ⟨rfl, rfl⟩
  success hanswered := by
    obtain ⟨v, hv, hrest⟩ := h.success hanswered
    exact ⟨v, hv, fun w hw => hw.unique hv h.timed, hrest⟩
  remembered {f key request} hremembers := by
    obtain ⟨i, v, hcame, rfl, rfl⟩ := (h.traced f).remembered hremembers
    obtain ⟨hcommits, hreads⟩ := hcame.commits h.timed
    exact ⟨v, hcommits, rfl, hreads⟩
  resolved {f key payload} hresolved := by
    obtain ⟨i, v, hcame, rfl, rfl⟩ := ((h.traced f).resolved hresolved).completed
    exact ⟨v, hcame.commits h.timed⟩
  read hmem hread := by
    obtain ⟨i, v, hcame, hkey, rfl, rfl⟩ := h.read hmem hread
    obtain ⟨hcommits, hreads⟩ := hcame.commits h.timed
    exact ⟨i.key, v, hkey, hcommits, rfl, hreads⟩

/-- Whatever happens in a network in which nothing had happened, its successes agree. -/
theorem Run.agrees (hfresh : n₀.Fresh) (hrun : Run client n₀ history n) :
    n.Agrees client history :=
  (hrun.sound hfresh.sound).toAgrees

end Network

namespace Sample

/-- Two callers ask for one account under one key, each at a gateway of its own. -/
def applicant (who : Bool) : Client Bool :=
  ⟨accountOrder, "open", if who then "req-2" else "req-1", who⟩

/-- The two gateways over a new ledger. -/
def offices : Network Bool Bool where
  bank := Bank.initial {} ⟨5000⟩ 0 ⟨identifier, 0⟩ true
  fronts := fun _ => { gateway := { memory := { lifetime := 60000 } } }
  errand := fun _ => .outside

theorem fresh_offices : offices.Fresh :=
  ⟨rfl, rfl, by decide, fun _ => rfl, fun _ => rfl, fun hsome => (by cases hsome), fun _ => rfl⟩

theorem outcome_applicant : ∃ a, (offices.bank.ledger.serve
    (offices.bank.instruction accountCommand "open")).1.outcome = .ok (.opened a) :=
  ⟨_, rfl⟩

/-- The first caller is answered with the new account, and the second from the record of it. -/
theorem exists_agrees : ∃ history n seen seen' reply reply',
    Network.Run applicant offices history n ∧ n.errand false = .answered seen (.ok reply) ∧
      n.errand true = .answered seen' (.ok reply') ∧ n.Agrees applicant history ∧
      reply.toJson.render = reply'.toJson.render := by
  obtain ⟨a, ha⟩ := outcome_applicant
  have hsound : offices.Sound applicant [] := fresh_offices.sound
  obtain ⟨n₁, hfirst⟩ := hsound.exists_passage false ⟨rfl, rfl, rfl, rfl⟩ rfl
    command_accountOrder rfl
  obtain ⟨hrecords, seen, hseen⟩ := hfirst.success hsound command_accountOrder ha
  have hsound₁ := hfirst.run.sound hsound
  have hfront : n₁.fronts true = offices.fronts true := hfirst.fronts_of_ne true (by decide)
  have hfree : n₁.Free true :=
    ⟨hfirst.free.calm, hfirst.free.reachable, by rw [hfront]; rfl, by rw [hfront]; rfl⟩
  have hout : n₁.errand true = .outside := hfirst.errand_of_ne true (by decide)
  have hunknown : (n₁.seat true).memory.completed? n₁.bank.now "open" = none := by
    rw [Network.seat, hfront]
    rfl
  obtain ⟨n₂, hsecond⟩ := hsound₁.exists_passage true hfree hout command_accountOrder
    hunknown
  have hreplay := hrecords.replay (j := n₁.bank.instruction accountCommand "open") rfl trivial rfl
  have houtcome : (n₁.bank.ledger.serve (n₁.bank.instruction accountCommand "open")).1.outcome =
      .ok (.opened a) := by
    rw [hreplay]
    exact Report.outcome_replay (.opened a)
  obtain ⟨-, seen', hseen'⟩ := hsecond.success hsound₁ command_accountOrder houtcome
  have hkept : n₂.errand false = n₁.errand false := hsecond.errand_of_ne false (by decide)
  have hrun := hfirst.run.trans hsecond.run
  have hagrees := hrun.agrees fresh_offices
  exact ⟨_, n₂, seen, seen', _, _, hrun, hkept.trans hseen, hseen', hagrees,
    (hagrees.same (hkept.trans hseen) hseen' rfl).2⟩

end Sample

end KeyedLedger
