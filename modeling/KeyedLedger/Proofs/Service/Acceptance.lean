import KeyedLedger.Proofs.Ledger.Refusals
import KeyedLedger.Proofs.Service.Currencies

/-! # What the gateway accepts is in order for the ledger

The gateway checks a request before it sends a command, and the ledger checks the command again when
it arrives as text. The two agree: a command of a request that has been accepted reads back as it
was written, and whatever the ledger holds, it does not refuse the command for how it is made.
-/

namespace KeyedLedger

/-! ## Currencies -/

/-- Listing the listed currencies once more changes nothing. -/
theorem Currency.distinct_of_distinct {listed currencies : List Currency}
    (h : distinct listed = .ok currencies) : distinct currencies = .ok currencies := by
  obtain ⟨-, -, hordered⟩ := distinct_eq_ok_iff.mp h
  exact distinct_eq_ok_iff.mpr ⟨ne_nil_of_distinct h, List.Perm.refl _, hordered⟩

/-- The command of a request for an account lists the requested currencies in order. -/
theorem AccountRequest.toCommand_ok {r : AccountRequest} {c : OpenAccount}
    (h : r.toCommand = .ok c) :
    Currency.distinct c.currencies = .ok c.currencies ∧ c.currencies.Sublist Currency.all ∧
      ∀ k, k ∈ c.currencies ↔ ∃ raw ∈ r.currencies, Currency.read raw = .ok k := by
  obtain ⟨listed, hlisted, h⟩ := bind_ok h
  obtain ⟨customer, -, h⟩ := bind_ok h
  obtain ⟨country, -, h⟩ := bind_ok h
  obtain ⟨currencies, hdistinct, h⟩ := bind_ok h
  cases h
  obtain ⟨-, hperm, -⟩ := Currency.distinct_eq_ok_iff.mp hdistinct
  have hnamed := Currency.mapM_read_eq_ok_iff.mp hlisted
  refine ⟨Currency.distinct_of_distinct hdistinct, ?_, fun k => ?_⟩
  · dsimp only
    rw [Currency.eq_of_distinct hdistinct]
    exact List.filter_sublist
  · simp only [Currency.read_eq_ok_iff]
    exact hperm.mem_iff.trans (Currency.mem_of_forall₂_named hnamed k)

/-! ## Accounts -/

/-- Without a receipt under its key, and where nothing goes wrong, a command is carried out that
lists currencies in order. -/
theorem Store.openAccount_new {s : Store} {c : OpenAccount} {key : String} (now : Timestamp)
    (draw : Draw) (hcalm : s.disturbances = .none) (hnone : s.ledger.receipt? key = none)
    (hdistinct : Currency.distinct c.currencies = .ok c.currencies) :
    ∃ a : Account, (s.openAccount c key now draw).1 = .ok ⟨a, false⟩ ∧
      (s.openAccount c key now draw).2.ledger = s.ledger.opened a key now ∧
      a.customer = c.customer ∧ a.country = c.country ∧
      a.balances.map Balance.currency = c.currencies := by
  let a : Account := ⟨draw.account, c.customer, c.country,
    c.currencies.map fun k => Balance.opened (draw.balance k) draw.account k now, now, now⟩
  have hopening : Account.opening c.customer c.country c.currencies now draw = .ok a := by
    rw [Account.opening, hdistinct]
    rfl
  have hrecorded : s.ledger.recorded key .openAccount Account.shape = .ok none := by
    rw [Ledger.recorded, hnone]
  have hplan : c.plan key now draw s.ledger = .ok (⟨a, false⟩, s.ledger.opened a key now) := by
    rw [OpenAccount.plan_apply, hopening]
    exact if_pos hnone
  have hends := ends_of_calm hcalm (s.openAccount_cases c key now draw)
  rw [found_of_calm hcalm, hrecorded] at hends
  simp only [Plan.unless, hplan, Plan.orRecorded] at hends
  refine ⟨a, hends.1, hends.2, rfl, rfl, ?_⟩
  rw [List.map_map]
  exact List.map_id' _

/-! ## Requests that are accepted -/

/-- The command to apply a transaction is in order: it reads back as it is written, and on any
store, whatever its ledger and its failures, it is only found invalid for the limit of its balance
or for a receipt of another type under its key. -/
structure ApplyTransaction.InOrder (c : ApplyTransaction) : Prop where
  carried : ∀ m, ((Command.applyTransaction c).event m).decode shape.decoder = .ok c
  valid : ∀ (s : Store) key now draw e, (s.applyTransaction c key now draw).1 = .error e →
    e.code = .validationFailed → c.Invalidated s.ledger key e

/-- The command to open an account is in order for a request: it reads back as it is written, and it
lists the requested currencies in their order; under a key without a receipt, on a store that does
not fail, it opens an account with a balance in each of them. -/
structure OpenAccount.InOrder (c : OpenAccount) (r : AccountRequest) : Prop where
  carried : ∀ m, ((Command.openAccount c).event m).decode shape.decoder = .ok c
  ordered : c.currencies.Sublist Currency.all
  requested : ∀ k, k ∈ c.currencies ↔ ∃ raw ∈ r.currencies, Currency.read raw = .ok k
  opens : ∀ (s : Store) key now draw, s.disturbances = .none → s.ledger.receipt? key = none →
    ∃ a : Account, (s.openAccount c key now draw).1 = .ok ⟨a, false⟩ ∧
      (s.openAccount c key now draw).2.ledger = s.ledger.opened a key now ∧
      a.customer = c.customer ∧ a.country = c.country ∧
      a.balances.map Balance.currency = c.currencies

theorem TransactionRequest.inOrder {r : TransactionRequest} {c : ApplyTransaction}
    (h : r.toCommand = .ok c) : c.InOrder := by
  obtain ⟨hdescribed, n, hpos, hle, hamount⟩ := toCommand_ok h
  have hvalid : Money.validate c.amount = .ok c.amount := by
    rw [hamount]
    exact Money.validate_ofCents hpos hle
  have hunsigned : c.amount.negative = true → c.amount.mantissa ≠ 0 := by
    rw [hamount]
    exact unsigned_ofCents n
  exact ⟨fun m => Event.decode_ofJson c.whole (ApplyTransaction.reads hunsigned) _ m,
    fun _ _ _ _ _ herror hcode => Store.invalidated_of_error hvalid hdescribed herror hcode⟩

theorem AccountRequest.inOrder {r : AccountRequest} {c : OpenAccount} (h : r.toCommand = .ok c) :
    c.InOrder r := by
  obtain ⟨hdistinct, hordered, hrequested⟩ := toCommand_ok h
  exact ⟨fun m => Event.decode_ofJson c.whole c.reads _ m, hordered, hrequested,
    fun s _ now draw hcalm hnone => s.openAccount_new now draw hcalm hnone hdistinct⟩

/-- The command of every request that is accepted is in order for the ledger. -/
theorem accepted_in_order :
    (∀ (r : TransactionRequest) (c : ApplyTransaction), r.toCommand = .ok c → c.InOrder) ∧
      ∀ (r : AccountRequest) (c : OpenAccount), r.toCommand = .ok c → c.InOrder r :=
  ⟨fun _ _ => TransactionRequest.inOrder, fun _ _ => AccountRequest.inOrder⟩

namespace Sample

/-- A request for the largest amount, with blanks, small letters and more places than money has. -/
def largeRequest : TransactionRequest :=
  ⟨" " ++ toString (identifier 0) ++ " ", Money.maximum.rescale (Fin.last 28), " eur", "in ", ""⟩

/-- The command of that request. -/
def largeCommand : ApplyTransaction :=
  ⟨identifier 0, Money.maximum, .eur, .credit, ""⟩

/-- A request for an account in two currencies. -/
def pocketsRequest : AccountRequest :=
  ⟨" CUST1 ", "ee", ["usd", " Eur "]⟩

theorem accepted_in_order_large :
    largeCommand.InOrder ∧ OpenAccount.InOrder ⟨customer, country, [.eur, .usd]⟩ pocketsRequest :=
  ⟨accepted_in_order.1 largeRequest largeCommand rfl, accepted_in_order.2 pocketsRequest _ rfl⟩

end Sample

end KeyedLedger
