import KeyedLedger.Entity.Account

/-! # Transactions

A transaction records one move of a balance: what was moved, in which direction, and what
was available afterwards. It carries the key under which it was asked for.
-/

namespace KeyedLedger

/-- A recorded move of a balance. -/
structure Transaction where
  id : Identifier
  accountId : Identifier
  balanceId : Identifier
  amount : Decimal
  currency : Currency
  direction : Direction
  description : String
  balanceAfter : Decimal
  status : Status
  key : String
  createdAt : Timestamp
  updatedAt : Timestamp
deriving DecidableEq

namespace Transaction

/-- The transaction as JSON. -/
def toJson (t : Transaction) : Json :=
  .object [
    ("id", .string (toString t.id)),
    ("account_id", .string (toString t.accountId)),
    ("balance_id", .string (toString t.balanceId)),
    ("amount", .string (toString t.amount)),
    ("currency", .string t.currency.code),
    ("direction", .string t.direction.code),
    ("description", .string t.description),
    ("balance_after", .string (toString t.balanceAfter)),
    ("status", .string t.status.code),
    ("idempotency_key", .string t.key),
    ("created_at", .string (toString t.createdAt)),
    ("updated_at", .string (toString t.updatedAt))]

/-- The fields of a transaction. -/
def shape : Shape Transaction :=
  mk <$> .field "id" .identifier
    <*> .field "account_id" .identifier
    <*> .field "balance_id" .identifier
    <*> .field "amount" .decimal
    <*> .field "currency" Currency.decoder
    <*> .field "direction" (.name Direction.ofCode?)
    <*> .field "description" .string
    <*> .field "balance_after" .decimal
    <*> .field "status" (.name Status.ofCode?)
    <*> .field "idempotency_key" .string
    <*> .field "created_at" .timestamp
    <*> .field "updated_at" .timestamp

end Transaction

/-- A transaction with the balance that it left. -/
structure Applied where
  transaction : Transaction
  balance : Balance
deriving DecidableEq

namespace Applied

/-- Both as JSON. -/
def toJson (a : Applied) : Json :=
  .object [("transaction", a.transaction.toJson), ("balance", a.balance.toJson)]

/-- The two fields. -/
def shape : Shape Applied :=
  mk <$> .field "transaction" Transaction.shape.decoder
    <*> .field "balance" Balance.shape.decoder

end Applied

end KeyedLedger
