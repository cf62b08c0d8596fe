import KeyedLedger.Gateway.Error
import KeyedLedger.Message.Command

/-! # Requests

What a caller asks for, as the text of the request gives it. A request that is well formed becomes
a command for the ledger; one that is not is refused before anything is sent.
-/

namespace KeyedLedger

/-- A rule of the domain that a request has to obey. -/
def obeyed {α : Type} : Except Refusal α → Except ServiceError α
  | .ok a => .ok a
  | .error r => .error (.ofRefusal r)

/-- The request to open an account. -/
structure AccountRequest where
  customer : String
  country : String
  currencies : List String
deriving DecidableEq

namespace AccountRequest

/-- The fields of the request. -/
def shape : Shape AccountRequest :=
  mk <$> .field "customerId" .string
    <*> .field "country" .string
    <*> .field "currencies" (.list .string)

/-- The command, its currencies in order. A text that is no currency is refused first, then the
customer, the country and the list as a whole. -/
def toCommand (r : AccountRequest) : Except Refusal OpenAccount := do
  let listed ← r.currencies.mapM Currency.read
  let customer ← CustomerId.read r.customer
  let country ← CountryCode.read r.country
  let currencies ← Currency.distinct listed
  return ⟨customer, country, currencies⟩

end AccountRequest

/-- The identifier of an account as a caller gives it, blanks around it allowed. -/
def readAccountId (raw : String) : Except ServiceError Identifier :=
  match Identifier.read? (Text.trim raw) with
  | some id => .ok id
  | none => .error (.validation s!"Invalid account id: {raw}")

/-- The request to apply a transaction. -/
structure TransactionRequest where
  accountId : String
  amount : Decimal
  currency : String
  direction : String
  description : String
deriving DecidableEq

namespace TransactionRequest

/-- The fields of the request. -/
def shape : Shape TransactionRequest :=
  mk <$> .field "accountId" .string
    <*> .field "amount" .decimal
    <*> .field "currency" .string
    <*> .field "direction" .string
    <*> .withDefault "description" .string ""

/-- The command, its amount with two places. The description is refused first, then the
account, the amount, the currency and the direction. -/
def toCommand (r : TransactionRequest) : Except ServiceError ApplyTransaction := do
  obeyed (checkDescription r.description)
  let accountId ← readAccountId r.accountId
  let amount ← obeyed (Money.validate r.amount)
  let currency ← obeyed (Currency.read r.currency)
  let direction ← obeyed (Direction.read r.direction)
  return ⟨accountId, amount, currency, direction, r.description⟩

end TransactionRequest

end KeyedLedger
