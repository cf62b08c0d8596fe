import KeyedLedger.Entity.Transaction
import KeyedLedger.Event.Envelope

/-! # Commands

The ledger carries out two commands: to open an account and to apply a transaction. What is in a
command has been checked for form, and for the rules of customers and countries, but not
against the state of the ledger; its amount and its currencies may still be refused.
-/

namespace KeyedLedger

/-- The two kinds of request. -/
inductive RequestType where
  | openAccount
  | applyTransaction
deriving DecidableEq, Repr

/-- The code of a request type. -/
def RequestType.code : RequestType → String
  | openAccount => "ACCOUNT_CREATE"
  | applyTransaction => "TRANSACTION_CREATE"

/-- The command to open an account. -/
structure OpenAccount where
  customer : CustomerId
  country : CountryCode
  currencies : List Currency
deriving DecidableEq

namespace OpenAccount

/-- The type of the event that carries the command. -/
def eventType : String := "CreateAccount.v1"

/-- The command as JSON. -/
def toJson (c : OpenAccount) : Json :=
  .object [
    ("customer_id", .string c.customer.text),
    ("country", .string c.country.text),
    ("currencies", .array (c.currencies.map fun k => .string k.code))]

/-- The fields of the command. -/
def shape : Shape OpenAccount :=
  mk <$> .field "customer_id" CustomerId.decoder
    <*> .field "country" CountryCode.decoder
    <*> .field "currencies" (.list Currency.decoder)

end OpenAccount

/-- The command to apply a transaction. -/
structure ApplyTransaction where
  accountId : Identifier
  amount : Decimal
  currency : Currency
  direction : Direction
  description : String
deriving DecidableEq

namespace ApplyTransaction

/-- The type of the event that carries the command. -/
def eventType : String := "CreateTransaction.v1"

/-- The command as JSON. -/
def toJson (c : ApplyTransaction) : Json :=
  .object [
    ("account_id", .string (toString c.accountId)),
    ("amount", .string (toString c.amount)),
    ("currency", .string c.currency.code),
    ("direction", .string c.direction.code),
    ("description", .string c.description)]

/-- The fields of the command. -/
def shape : Shape ApplyTransaction :=
  mk <$> .field "account_id" .identifier
    <*> .field "amount" .decimal
    <*> .field "currency" Currency.decoder
    <*> .field "direction" (.name Direction.ofCode?)
    <*> .field "description" .string

end ApplyTransaction

end KeyedLedger
