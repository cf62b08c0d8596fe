import KeyedLedger.Decimal.Sum
import KeyedLedger.Identifier
import KeyedLedger.Json.Decoder
import KeyedLedger.Money.Amount
import KeyedLedger.Time.Timestamp

/-! # Balances

An account has one balance in each of its currencies. A balance only moves by `Balance.move`,
which keeps it between zero and the maximum for amounts that are valid, and counts every
move in its version.
-/

namespace KeyedLedger

/-- What an account has in one currency. -/
structure Balance where
  id : Identifier
  accountId : Identifier
  currency : Currency
  available : Decimal
  version : Int64
  updatedAt : Timestamp
deriving DecidableEq

namespace Balance

/-- A balance at its start: nothing available, version one. -/
def opened (id accountId : Identifier) (currency : Currency) (now : Timestamp) : Balance where
  id := id
  accountId := accountId
  currency := currency
  available := Money.zero
  version := 1
  updatedAt := now

/-- What is available after a move, unless it passes the maximum or overdraws. -/
def availableAfter (b : Balance) (direction : Direction) (amount : Decimal) :
    Except Refusal Decimal :=
  match direction with
  | .credit =>
    match b.available.add? amount with
    | some sum =>
      if sum ≤ Money.maximum then .ok sum
      else .error (.balanceLimitExceeded b.available amount)
    | none => .error (.balanceLimitExceeded b.available amount)
  | .debit =>
    if amount ≤ b.available then
      Refusal.orElse (.balanceLimitExceeded b.available amount) (b.available.sub? amount)
    else .error (.insufficientFunds b.available amount)

/-- The balance after a move. -/
def move (b : Balance) (direction : Direction) (amount : Decimal) (now : Timestamp) :
    Except Refusal Balance := do
  let available ← b.availableAfter direction amount
  return { b with available := Money.atScale available, version := b.version + 1, updatedAt := now }

/-! ## JSON -/

/-- The balance as JSON. -/
def toJson (b : Balance) : Json :=
  .object [
    ("id", .string (toString b.id)),
    ("account_id", .string (toString b.accountId)),
    ("currency", .string b.currency.code),
    ("available", .string (toString b.available)),
    ("version", .ofInt b.version.toInt),
    ("updated_at", .string (toString b.updatedAt))]

/-- The fields of a balance. -/
def shape : Shape Balance :=
  mk <$> .field "id" .identifier
    <*> .field "account_id" .identifier
    <*> .field "currency" (.name Currency.ofCode?)
    <*> .field "available" .decimal
    <*> .field "version" .int64
    <*> .field "updated_at" .timestamp

end Balance

end KeyedLedger
