import KeyedLedger.Message.Outcome
import KeyedLedger.Proofs.Entity.Reading
import KeyedLedger.Proofs.Json.Written
import KeyedLedger.Service.View

/-! # Messages and views read back as they were written

A command and its outcome cross the broker as text, and the answer to a caller is kept as JSON. Each
reads back as itself: a command and the news of a rejection always, what was opened or applied if it
can be written without loss.
-/

namespace KeyedLedger

open Decoder Shape

/-! ## Commands -/

theorem OpenAccount.reads (c : OpenAccount) : OpenAccount.shape.decoder.Reads c.toJson c := by
  refine Writes.decoder ?_ (by simp)
  unfold OpenAccount.shape
  exact Writes.map _ (Writes.field (.customer c.customer))
    |>.seq (Writes.field (.country c.country))
    |>.seq (Writes.field (.list fun k _ => .name k.ofCode?_code))

theorem OpenAccount.whole (c : OpenAccount) : c.toJson.Whole := by
  simp [toJson]

/-- The command with its amount as it is read. -/
def ApplyTransaction.asRead (c : ApplyTransaction) : ApplyTransaction :=
  { c with amount := c.amount.asRead }

theorem ApplyTransaction.readsAsRead (c : ApplyTransaction) :
    ApplyTransaction.shape.decoder.Reads c.toJson c.asRead := by
  refine Writes.decoder ?_ (by simp)
  unfold ApplyTransaction.shape
  exact Writes.map _ (Writes.field (.identifier c.accountId))
    |>.seq (Writes.field (.decimal c.amount))
    |>.seq (Writes.field (.name c.currency.ofCode?_code))
    |>.seq (Writes.field (.name c.direction.ofCode?_code))
    |>.seq (Writes.field (.string c.description))

theorem ApplyTransaction.reads {c : ApplyTransaction}
    (h : c.amount.negative = true → c.amount.mantissa ≠ 0) :
    ApplyTransaction.shape.decoder.Reads c.toJson c := by
  have hread := c.readsAsRead
  rwa [asRead, Decimal.Proper.asRead_eq h] at hread

theorem ApplyTransaction.whole (c : ApplyTransaction) : c.toJson.Whole := by
  simp [toJson]

/-! ## Outcomes -/

theorem Balance.whole (b : Balance) : b.toJson.Whole := by
  simp [toJson]

theorem Account.Timed.readsOutcome {a : Account} (h : a.Timed) :
    Account.outcomeShape.decoder.Reads a.toOutcome a.asRead :=
  Writes.decoder (Writes.field h.reads) (by simp)

theorem Account.Legible.readsOutcome {a : Account} (h : a.Legible) :
    Account.outcomeShape.decoder.Reads a.toOutcome a :=
  Writes.decoder (Writes.field h.reads) (by simp)

theorem Account.yields_timed_outcome : Account.outcomeShape.decoder.Yields Account.Timed :=
  Shape.Yields.decoder (.field Account.yields_timed.decoder)

theorem Account.wholeOutcome (a : Account) : a.toOutcome.Whole := by
  simp [toOutcome, toJson, Balance.whole]

theorem Applied.whole (a : Applied) : a.toJson.Whole := by
  simp [toJson, Transaction.toJson, Balance.whole]

theorem Rejection.reads {r : Rejection} (h : Timestamp.yearInRange r.timestamp.date.year = true) :
    Rejection.shape.decoder.Reads r.toJson r := by
  have hid : (Decoder.option Decoder.string).Reads (.ofOption (r.requestId.map .string))
      r.requestId := by
    cases r.requestId with
    | none => exact .absent _
    | some id => exact (Reads.string id).present (by simp [Decoder.string, Decoder.reject])
  refine Writes.decoder ?_ (by simp)
  unfold Rejection.shape
  exact Writes.map _ (Writes.field (.name r.code.ofCode?_code))
    |>.seq (Writes.field (.string r.reason))
    |>.seq (Writes.optional hid)
    |>.seq (Writes.field (.timestamp h))

theorem Rejection.yields_timed :
    Rejection.shape.Yields fun r => Timestamp.yearInRange r.timestamp.date.year = true := by
  unfold shape
  refine .seq (.field .timestamp) <| .left <| .left <| .map <| .of_forall ?_
  exact fun _ _ _ _ htimestamp => htimestamp

theorem Rejection.whole (r : Rejection) : r.toJson.Whole := by
  cases hid : r.requestId <;> simp [toJson, hid, Json.ofOption]

/-! ## Views -/

/-! A view is read with its amounts as they are read. -/

theorem BalanceView.readsAsRead (b : Balance) :
    BalanceView.shape.decoder.Reads (BalanceView.ofBalance b).toJson (.ofBalance b.asRead) := by
  refine Writes.decoder ?_ (by simp)
  unfold BalanceView.shape
  exact Writes.map _ (Writes.field (.identifier b.id))
    |>.seq (Writes.field (.name b.currency.ofCode?_code))
    |>.seq (Writes.field (.decimal b.available))
    |>.seq (Writes.field (.int64 b.version))

theorem AccountView.readsAsRead {a : Account} (h : a.Timed) :
    AccountView.shape.decoder.Reads (AccountView.ofAccount a).toJson (.ofAccount a.asRead) := by
  have hbalances : (Decoder.list BalanceView.shape.decoder).Reads
      (.array ((a.balances.map .ofBalance).map BalanceView.toJson))
      (a.asRead.balances.map .ofBalance) := by
    simp only [Account.asRead, List.map_map]
    exact .listOf fun b _ => BalanceView.readsAsRead b
  refine Writes.decoder ?_ (by simp)
  unfold AccountView.shape
  exact Writes.map _ (Writes.field (.identifier a.id))
    |>.seq (Writes.field (.string a.customer.text))
    |>.seq (Writes.field (.string a.country.text))
    |>.seq (Writes.field hbalances)
    |>.seq (Writes.field (.timestamp h.2.1))

theorem TransactionView.readsAsRead {a : Applied} (h : a.transaction.Timed) :
    TransactionView.shape.decoder.Reads (TransactionView.ofApplied a).toJson
      (.ofApplied a.asRead) := by
  have hbalance : (Decoder.option BalanceView.shape.decoder).Reads
      (BalanceView.ofBalance a.balance).toJson (some (.ofBalance a.balance.asRead)) :=
    (BalanceView.readsAsRead a.balance).present (by simp [Shape.decoder, Decoder.reject])
  have hstatus := a.transaction.status.ofCode?_code
  refine Writes.decoder ?_ (by simp [ofApplied])
  unfold TransactionView.shape
  exact Writes.map _ (Writes.field (.identifier a.transaction.id))
    |>.seq (Writes.field (.identifier a.transaction.accountId))
    |>.seq (Writes.field (.decimal a.transaction.amount))
    |>.seq (Writes.field (.name a.transaction.currency.ofCode?_code))
    |>.seq (Writes.field (.name a.transaction.direction.ofCode?_code))
    |>.seq (Writes.field (.string a.transaction.description))
    |>.seq (Writes.field (.decimal a.transaction.balanceAfter))
    |>.seq (Writes.field (.name hstatus))
    |>.seq (Writes.field (.timestamp h.1))
    |>.seq (Writes.withDefault hbalance none)

theorem AccountView.requires_customer : AccountView.shape.Requires "customerId" := by
  unfold AccountView.shape
  exact (((Requires.field "customerId" .string).right _).left _).left _ |>.left _

theorem TransactionView.requires_id : TransactionView.shape.Requires "transactionId" := by
  unfold TransactionView.shape
  exact (Requires.field "transactionId" .identifier).map _ |>.left _ |>.left _ |>.left _
    |>.left _ |>.left _ |>.left _ |>.left _ |>.left _ |>.left _

end KeyedLedger
