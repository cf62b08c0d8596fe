import KeyedLedger.Entity.Transaction

/-! # Views

What a caller is shown of an account, of its balances and of a transaction. A view can be
written and read back, and it is also what is remembered of a completed request.
-/

namespace KeyedLedger

/-- What is shown of a balance. -/
structure BalanceView where
  id : Identifier
  currency : Currency
  available : Decimal
  version : Int64
deriving DecidableEq

namespace BalanceView

/-- The view of a balance. -/
def ofBalance (b : Balance) : BalanceView :=
  ⟨b.id, b.currency, b.available, b.version⟩

/-- The view as JSON. -/
def toJson (v : BalanceView) : Json :=
  .object [
    ("balanceId", .string (toString v.id)),
    ("currency", .string v.currency.code),
    ("availableAmount", .string (toString v.available)),
    ("version", .ofInt v.version.toInt)]

/-- The fields of the view. -/
def shape : Shape BalanceView :=
  mk <$> .field "balanceId" .identifier
    <*> .field "currency" Currency.decoder
    <*> .field "availableAmount" .decimal
    <*> .field "version" .int64

end BalanceView

/-- What is shown of an account. -/
structure AccountView where
  id : Identifier
  customer : String
  country : String
  balances : List BalanceView
  createdAt : Timestamp
deriving DecidableEq

namespace AccountView

/-- The view of an account. -/
def ofAccount (a : Account) : AccountView :=
  ⟨a.id, a.customer.text, a.country.text, a.balances.map .ofBalance, a.createdAt⟩

/-- The view as JSON. -/
def toJson (v : AccountView) : Json :=
  .object [
    ("accountId", .string (toString v.id)),
    ("customerId", .string v.customer),
    ("country", .string v.country),
    ("balances", .array (v.balances.map BalanceView.toJson)),
    ("createdAt", .string (toString v.createdAt))]

/-- The fields of the view. -/
def shape : Shape AccountView :=
  mk <$> .field "accountId" .identifier
    <*> .field "customerId" .string
    <*> .field "country" .string
    <*> .field "balances" (.list BalanceView.shape.decoder)
    <*> .field "createdAt" .timestamp

end AccountView

/-- What is shown of a transaction; in a list of transactions, without the balance. -/
structure TransactionView where
  id : Identifier
  accountId : Identifier
  amount : Decimal
  currency : Currency
  direction : Direction
  description : String
  balanceAfter : Decimal
  status : Status
  createdAt : Timestamp
  balance : Option BalanceView
deriving DecidableEq

namespace TransactionView

/-- The view of a transaction alone. -/
def ofTransaction (t : Transaction) : TransactionView :=
  ⟨t.id, t.accountId, t.amount, t.currency, t.direction, t.description, t.balanceAfter, t.status,
    t.createdAt, none⟩

/-- The view of a transaction with the balance that it left. -/
def ofApplied (a : Applied) : TransactionView :=
  { ofTransaction a.transaction with balance := some (.ofBalance a.balance) }

/-- The view as JSON. A balance that is not shown has no member. -/
def toJson (v : TransactionView) : Json :=
  .object <| [
    ("transactionId", .string (toString v.id)),
    ("accountId", .string (toString v.accountId)),
    ("amount", .string (toString v.amount)),
    ("currency", .string v.currency.code),
    ("direction", .string v.direction.code),
    ("description", .string v.description),
    ("balanceAfterTransaction", .string (toString v.balanceAfter)),
    ("status", .string v.status.code),
    ("createdAt", .string (toString v.createdAt))] ++
    (v.balance.map fun b => ("balance", b.toJson)).toList

/-- The fields of the view. -/
def shape : Shape TransactionView :=
  mk <$> .field "transactionId" .identifier
    <*> .field "accountId" .identifier
    <*> .field "amount" .decimal
    <*> .field "currency" Currency.decoder
    <*> .field "direction" (.name Direction.ofCode?)
    <*> .field "description" .string
    <*> .field "balanceAfterTransaction" .decimal
    <*> .field "status" (.name Status.ofCode?)
    <*> .field "createdAt" .timestamp
    <*> .withDefault "balance" (.option BalanceView.shape.decoder) none

end TransactionView

end KeyedLedger
