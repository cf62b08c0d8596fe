import KeyedLedger.Proofs.Bank.Passage
import KeyedLedger.Proofs.Ledger.Lasting

/-! # What a rejection leaves open

A rejected command leaves nothing behind, so that it can be tried again. A copy of it that is still
under way is tried again as well: if it reaches the ledger after its caller has been told of the
rejection, it may be applied (`Sample.rejection_revoked`). Apart from such copies a rejection is
final unless somebody issues another request under its key, and no copy is applied of a command that
was refused for a reason that no balance decides.
-/

namespace KeyedLedger

namespace Network

variable {ι κ : Type} [DecidableEq ι] [DecidableEq κ] {client : κ → Client ι}
  {history later : List Instruction} {n₀ n n' : Network ι κ} {who : κ} {r : Rejection}
  {result : Except ServiceError Reply}

/-- Nobody issues a request under a key from one state of a network to another. -/
def Quiet (client : κ → Client ι) (key : String) (n n' : Network ι κ) : Prop :=
  ∀ who, (client who).key = key → n.errand who = .outside → n'.errand who = .outside

/-- What stands of a rejection that a caller has been told of, after some more instructions. Only
`rejected` is about the rejected command; the other clauses hold for the key of every caller, as the
ledger keeps nothing of a rejection. -/
structure RejectionStands (client : κ → Client ι) (who : κ) (result : Except ServiceError Reply)
    (history later : List Instruction) (n n' : Network ι κ) : Prop where
  /-- The caller was told why the ledger rejected an instruction under the key. The instruction left
  the ledger as it was. If it was a transaction, and refused for its amount, for its description or
  for a currency that its account is not kept in, then no later copy of it is applied. -/
  rejected : ∃ before i after e, history = before ++ i :: after ∧ i.key = (client who).key ∧
    ((({} : Ledger).after before).serve i).1.outcome = .error e ∧
    ((({} : Ledger).after before).serve i).2 = ({} : Ledger).after before ∧
    result = .error (.ofCode e.code e.message) ∧
    ∀ c, i.command = .applyTransaction c → e.Lasting →
      ({} : Ledger).DrawsFresh (history ++ later) → n.bank.ledger.Declines later i.command
  /-- No transaction is committed under the key unless a command under it reaches the ledger again.
  -/
  final : (∀ i ∈ later, i.key ≠ (client who).key) →
    ∀ t ∈ n'.bank.ledger.transactions, t.key = (client who).key → t ∈ n.bank.ledger.transactions
  /-- A transaction that is committed all the same is the effect of such a command, which somebody
  had issued before the rejection was told. -/
  revoked : ∀ t ∈ n'.bank.ledger.transactions, t.key = (client who).key →
    t ∉ n.bank.ledger.transactions →
    ∃ before i after a, later = before ++ i :: after ∧ i.key = (client who).key ∧
      ((n.bank.ledger.after before).serve i).1.effect? = some (.applied a) ∧ a.transaction = t ∧
      n.Issued client (client who).key i.command
  /-- There is never more than one, -/
  once : ∀ t ∈ n'.bank.ledger.transactions, ∀ t' ∈ n'.bank.ledger.transactions,
    t.key = (client who).key → t'.key = (client who).key → t = t'
  /-- and no new one if the key has a receipt by then. -/
  used : n.bank.ledger.receipt? (client who).key ≠ none →
    ∀ t ∈ n'.bank.ledger.transactions, t.key = (client who).key → t ∈ n.bank.ledger.transactions

omit [DecidableEq ι] [DecidableEq κ] in
/-- A caller who has seen a rejection was told why the ledger rejected an instruction. -/
theorem Sound.rejected (h : n.Sound client history)
    (hanswered : n.errand who = .answered (some (.rejected r)) result) :
    ∃ before i after e, history = before ++ i :: after ∧ i.key = (client who).key ∧
      ((({} : Ledger).after before).serve i).1.outcome = .error e ∧
      ((({} : Ledger).after before).serve i).2 = ({} : Ledger).after before ∧
      result = .error (.ofCode e.code e.message) ∧
      ∀ c, i.command = .applyTransaction c → e.Lasting →
        ({} : Ledger).DrawsFresh (history ++ later) → n.bank.ledger.Declines later i.command := by
  have htold := h.told hanswered
  obtain ⟨i, e, ⟨before, after, hsplit, hrejected⟩, hkey, hcode, hreason⟩ :=
    (htold.traced _ rfl).rejected
  have hsame := Ledger.serve_of_error hrejected
  refine ⟨before, i, after, e, hsplit, hkey, hrejected, hsame, ?_, ?_⟩
  · rw [htold.rejected r rfl, hcode, hreason]
  · intro c hcommand he hdrawn
    have hledger : n.bank.ledger = (({} : Ledger).after before).after after := by
      rw [h.ledger, hsplit, Ledger.after_append]
      exact congrArg (fun l : Ledger => l.after after) hsame
    rw [hsplit, List.append_assoc, Ledger.drawsFresh_append] at hdrawn
    obtain ⟨-, -, hfresh⟩ := hdrawn
    rw [hsame] at hfresh
    rw [hledger]
    exact (he.declines hcommand hrejected hfresh).of_append

omit [DecidableEq ι] [DecidableEq κ] in
/-- A command that reaches the ledger later was issued before, if nobody has issued one since. -/
theorem Sound.issued_of_quiet (h : n'.Sound client (history ++ later)) {key : String}
    (hquiet : Quiet client key n n') {i : Instruction} (hi : i ∈ later) (hkey : i.key = key) :
    n.Issued client key i.command := by
  obtain ⟨who, hout, hwho, hcommand⟩ := h.issued i (List.mem_append_right _ hi)
  exact ⟨who, fun houtside => hout (hquiet who (hwho.trans hkey) houtside), hwho.trans hkey,
    hcommand⟩

/-- A rejection that a caller has been told of stands as long as nobody issues another request under
its key, but for the commands under the key that are still under way. -/
theorem Run.rejection_stands (hfresh : n₀.Fresh) (hrun : Run client n₀ history n)
    (hanswered : n.errand who = .answered (some (.rejected r)) result)
    (hlater : Run client n later n') (hquiet : Quiet client (client who).key n n') :
    RejectionStands client who result history later n n' := by
  have hsound : n.Sound client history := hrun.sound hfresh.sound
  have hsound' : n'.Sound client (history ++ later) := hlater.sound hsound
  have hledger : n'.bank.ledger = n.bank.ledger.after later := by
    rw [hsound'.ledger, hsound.ledger, Ledger.after_append]
  have hnew : ∀ t ∈ n'.bank.ledger.transactions, t.key = (client who).key →
      t ∉ n.bank.ledger.transactions →
      ∃ a : Applied, n.bank.ledger.Commits later (client who).key (.applied a) ∧
        a.transaction = t := by
    intro t ht hkey hnot
    rw [hledger] at ht
    rw [← hkey]
    exact Ledger.commits_of_transaction ht hnot
  refine ⟨hsound.rejected hanswered, ?_, ?_, ?_, ?_⟩
  · intro hnone t ht hkey
    by_contra hnot
    obtain ⟨a, ⟨before, i, after, hsplit, hi, -⟩, -⟩ := hnew t ht hkey hnot
    exact hnone i (hsplit ▸ List.mem_append_right _ List.mem_cons_self) hi
  · intro t ht hkey hnot
    obtain ⟨a, ⟨before, i, after, hsplit, hi, heffect⟩, ha⟩ := hnew t ht hkey hnot
    have hmem : i ∈ later := hsplit ▸ List.mem_append_right _ List.mem_cons_self
    exact ⟨before, i, after, a, hsplit, hi, heffect, ha, hsound'.issued_of_quiet hquiet hmem hi⟩
  · intro t ht t' ht' hkey hkey'
    rw [hsound'.ledger] at ht ht'
    exact Ledger.transaction_unique hsound'.timed ht ht' (hkey.trans hkey'.symm)
  · intro hused t ht hkey
    by_contra hnot
    obtain ⟨a, hcommits, -⟩ := hnew t ht hkey hnot
    exact hused hcommits.unrecorded

end Network

namespace Sample

/-- The request for a debit of that account. -/
def spendOrder : Order :=
  .applyTransaction ⟨toString (identifier 0), Money.ofCents 4000, "EUR", "OUT", "rent"⟩

/-- One caller opens the account, one spends from it and one fills it. -/
def customerOf : Fin 3 → Client Unit
  | 0 => ⟨accountOrder, "open", "req-1", ()⟩
  | 1 => ⟨spendOrder, "spend", "req-2", ()⟩
  | 2 => ⟨fillOrder, "fill", "req-3", ()⟩

/-- The gateway over a new ledger. -/
def counter : Network Unit (Fin 3) where
  bank := Bank.initial {} ⟨5000⟩ 0 ⟨identifier, 0⟩ true
  fronts := fun _ => { gateway := { memory := { lifetime := 60000 } } }
  errand := fun _ => .outside

theorem fresh_counter : counter.Fresh :=
  ⟨rfl, rfl, by decide, fun _ => rfl, fun _ => rfl, fun hsome => (by cases hsome), fun _ => rfl⟩

/-- The account is opened, and the debit is rejected. -/
def refusedSpend : List Instruction :=
  [opening, posting .debit 4000 "spend" 6 .none]

/-- The account is filled, and the debit is carried out once more. -/
def repeatedSpend : List Instruction :=
  [posting .credit 10000 "fill" 12 .none, posting .debit 4000 "spend" 18 .none]

theorem command_spendOrder :
    spendOrder.command = .ok (posting .debit 4000 "spend" 6 .none).command :=
  rfl

theorem command_filling :
    fillOrder.command = .ok (posting .credit 10000 "fill" 12 .none).command :=
  rfl

theorem outcome_spend : ∃ available requested,
    ((({} : Ledger).after [opening]).serve (posting .debit 4000 "spend" 6 .none)).1.outcome =
      .error (.refused (.insufficientFunds available requested)) :=
  ⟨_, _, rfl⟩

theorem transaction_repeatedSpend :
    (∃ t ∈ (({} : Ledger).after (refusedSpend ++ repeatedSpend)).transactions, t.key = "spend") ∧
      (({} : Ledger).after refusedSpend).transactions = [] :=
  ⟨⟨_, List.mem_cons_of_mem _ List.mem_cons_self, rfl⟩, rfl⟩

/-- The caller of the debit has been told of the rejection, and nothing else happens. -/
structure SpendRefused (n : Network Unit (Fin 3)) : Prop where
  run : Network.Run customerOf counter refusedSpend n
  free : n.Free ()
  topics : n.bank.topics = {}
  now : n.bank.now = .start2025
  supply : n.bank.supply = ⟨identifier, 12⟩
  told : ∃ r message,
    n.errand 1 = .answered (some (.rejected r)) (.error (.insufficientFunds message))
  outside : n.errand 2 = .outside
  published : ∃ m : Metadata, m.correlationKey? = some "spend" ∧
    (Topics.transactionCommands {}, (posting .debit 4000 "spend" 6 .none).command.event m) ∈
      n.bank.broker.record

theorem exists_spendRefused : ∃ n, SpendRefused n := by
  have hsound : counter.Sound customerOf [] := fresh_counter.sound
  obtain ⟨n₁, hopened⟩ := hsound.exists_passage 0 ⟨rfl, rfl, rfl, rfl⟩ rfl command_accountOrder rfl
  have hsound₁ := hopened.run.sound hsound
  have hledger : n₁.bank.ledger = ({} : Ledger).after [opening] := hopened.ledger
  have hunknown : (n₁.seat ()).memory.completed? n₁.bank.now "spend" = none :=
    hsound₁.unknown hopened.free (by rw [hledger]; rfl)
  obtain ⟨n₂, hspent⟩ := hsound₁.exists_passage 1 hopened.free
    (hopened.errand_of_ne 1 (by decide)) command_spendOrder hunknown
  have hinstruction : n₁.bank.instruction (posting .debit 4000 "spend" 6 .none).command "spend" =
      posting .debit 4000 "spend" 6 .none := by
    rw [Bank.instruction, hopened.now, hopened.supply]
    rfl
  have hrun : Network.Run customerOf counter ([opening] ++ [n₁.bank.instruction _ "spend"]) n₂ :=
    hopened.run.trans hspent.run
  rw [hinstruction] at hrun
  obtain ⟨available, requested, houtcome⟩ := outcome_spend
  obtain ⟨requestId, hanswered⟩ := hspent.answered
  change n₂.errand 1 = .answered (some (Gateway.Outcome.ofResult requestId n₁.bank.now
    (n₁.bank.ledger.serve (n₁.bank.instruction _ "spend")).1.outcome).resolution)
    (Result.tell _ (n₁.bank.ledger.serve (n₁.bank.instruction _ "spend")).1.outcome) at hanswered
  rw [hinstruction, hledger, houtcome] at hanswered
  have hpublished := hspent.published
  rw [hopened.topics] at hpublished
  exact ⟨n₂, hrun, hspent.free, hspent.topics.trans hopened.topics, hspent.now.trans hopened.now,
    hspent.supply.trans (by rw [hopened.supply]; rfl), ⟨_, _, hanswered⟩,
    (hspent.errand_of_ne 2 (by decide)).trans (hopened.errand_of_ne 2 (by decide)), hpublished⟩

/-- Then the account may be filled, and a copy of the debit reach the ledger. -/
theorem SpendRefused.exists_filled {n : Network Unit (Fin 3)} (h : SpendRefused n) : ∃ n₁ n',
    n.Passage customerOf 2 (posting .credit 10000 "fill" 12 .none).command n₁ ∧
      Network.Run customerOf n [posting .credit 10000 "fill" 12 .none] n₁ ∧
      Network.Run customerOf n₁ [posting .debit 4000 "spend" 18 .none] n' := by
  have hsound : n.Sound customerOf refusedSpend := h.run.sound fresh_counter.sound
  have hunknown : (n.seat ()).memory.completed? n.bank.now "fill" = none :=
    hsound.unknown h.free (by rw [hsound.ledger]; rfl)
  obtain ⟨n₁, hfilled⟩ := hsound.exists_passage 2 h.free h.outside command_filling hunknown
  obtain ⟨m, hm, hmem⟩ := h.published
  have htopic : Topics.transactionCommands {} ∈ n₁.bank.topics.commands := by
    rw [hfilled.topics, h.topics]
    decide
  have hspent : Network.Run customerOf n₁ _ _ :=
    Network.Run.refl.tail (.judge .none (hfilled.kept hmem) htopic)
  have hlegible := (Order.valid_of_command command_spendOrder).2
  have hinstruction : n.bank.instruction (posting .credit 10000 "fill" 12 .none).command "fill" =
      posting .credit 10000 "fill" 12 .none := by
    rw [Bank.instruction, h.now, h.supply]
    rfl
  rw [Event.instructions_event hlegible hm, hfilled.now, hfilled.supply, h.now, h.supply] at hspent
  have hrun : Network.Run customerOf n [n.bank.instruction _ "fill"] n₁ := hfilled.run
  rw [hinstruction] at hrun
  exact ⟨n₁, _, hfilled, hrun, hspent⟩

theorem SpendRefused.exists_repeated {n : Network Unit (Fin 3)} (h : SpendRefused n) :
    ∃ n', Network.Run customerOf n repeatedSpend n' := by
  obtain ⟨n₁, n', -, hfilled, hspent⟩ := h.exists_filled
  exact ⟨n', hfilled.trans hspent⟩

/-- Nobody else has a request under the key of the debit. -/
theorem SpendRefused.quiet {n : Network Unit (Fin 3)} (h : SpendRefused n)
    (n' : Network Unit (Fin 3)) : Network.Quiet customerOf "spend" n n' := by
  obtain ⟨r, message, htold⟩ := h.told
  intro who hkey hout
  have honly : ∀ who, (customerOf who).key = "spend" → who = 1 := by decide
  obtain rfl := honly who hkey
  cases htold.symm.trans hout

/-- A rejection is not final: with no other request under its key, a debit that has been refused for
insufficient funds is carried out, once the account has been filled and a copy of the command
reaches the ledger. -/
theorem rejection_revoked : ∃ (n n' : Network Unit (Fin 3)) (r : Rejection) (e : ServiceError),
    Network.Run customerOf counter refusedSpend n ∧
      (customerOf 1).order.requestType = .applyTransaction ∧
      n.errand 1 = .answered (some (.rejected r)) (.error e) ∧ e.isRetryable = false ∧
      Network.Run customerOf n repeatedSpend n' ∧
      Network.Quiet customerOf (customerOf 1).key n n' ∧
      ∃ t ∈ n'.bank.ledger.transactions, t.key = (customerOf 1).key ∧
        t ∉ n.bank.ledger.transactions := by
  obtain ⟨n, h⟩ := exists_spendRefused
  obtain ⟨n', hlater⟩ := h.exists_repeated
  obtain ⟨r, message, htold⟩ := h.told
  have hsound : n.Sound customerOf refusedSpend := h.run.sound fresh_counter.sound
  have hsound' := hlater.sound hsound
  obtain ⟨⟨t, ht, hkey⟩, hempty⟩ := transaction_repeatedSpend
  refine ⟨n, n', r, _, h.run, rfl, htold, rfl, hlater, h.quiet n', t, ?_, hkey, ?_⟩
  · rw [hsound'.ledger]
    exact ht
  · rw [hsound.ledger, hempty]
    exact List.not_mem_nil

/-- The rejection stands for as long as no copy reaches the ledger, and the copy is carried out
once. -/
theorem rejection_stands_repeated : ∃ (n n' : Network Unit (Fin 3)) (e : ServiceError),
    Network.Run customerOf counter refusedSpend n ∧ Network.Run customerOf n repeatedSpend n' ∧
      Network.RejectionStands customerOf 1 (.error e) refusedSpend repeatedSpend n n' := by
  obtain ⟨n, h⟩ := exists_spendRefused
  obtain ⟨n', hlater⟩ := h.exists_repeated
  obtain ⟨r, message, htold⟩ := h.told
  exact ⟨n, n', _, h.run, hlater,
    Network.Run.rejection_stands fresh_counter h.run htold hlater (h.quiet n')⟩

end Sample

end KeyedLedger
