import KeyedLedger.Entity.Balance
import KeyedLedger.Entity.Draw
import KeyedLedger.Party.Country
import KeyedLedger.Party.Customer

/-! # Accounts

An account belongs to a customer in a country and is opened with at least one currency, none
of them twice. Its balances are listed in the order of the currencies.
-/

namespace KeyedLedger

/-- The listed currencies in order, unless there is none or one is repeated; of several
repeated ones the first in order is named. -/
def Currency.distinct (listed : List Currency) : Except Refusal (List Currency) :=
  if listed.isEmpty then .error .noCurrencies
  else match all.find? fun c => 1 < listed.count c with
    | some c => .error (.duplicateCurrency c)
    | none => .ok (all.filter fun c => listed.contains c)

/-- An account with its balances. -/
structure Account where
  id : Identifier
  customer : CustomerId
  country : CountryCode
  balances : List Balance
  createdAt : Timestamp
  updatedAt : Timestamp
deriving DecidableEq

namespace Account

/-- A new account with the drawn identifiers, at zero in each of its currencies. -/
def opening (customer : CustomerId) (country : CountryCode) (currencies : List Currency)
    (now : Timestamp) (draw : Draw) : Except Refusal Account := do
  let currencies ← Currency.distinct currencies
  return {
    id := draw.account
    customer := customer
    country := country
    balances := currencies.map fun c => Balance.opened (draw.balance c) draw.account c now
    createdAt := now
    updatedAt := now }

/-- The balance in a currency. -/
def balance? (a : Account) (c : Currency) : Option Balance :=
  a.balances.find? fun b => b.currency = c

/-! ## JSON -/

/-- The account as JSON. -/
def toJson (a : Account) : Json :=
  .object [
    ("id", .string (toString a.id)),
    ("customer_id", .string a.customer.text),
    ("country", .string a.country.text),
    ("balances", .array (a.balances.map Balance.toJson)),
    ("created_at", .string (toString a.createdAt)),
    ("updated_at", .string (toString a.updatedAt))]

end Account

/-- A refusal as a fault of a text. -/
def Refusal.toFault {α : Type} : Except Refusal α → Except Fault α
  | .ok a => .ok a
  | .error r => .error (.refused r.message)

/-- The name of a customer in a JSON text. -/
def CustomerId.decoder : Decoder CustomerId :=
  Decoder.check .string fun s => Refusal.toFault (read s)

/-- The code of a country in a JSON text. -/
def CountryCode.decoder : Decoder CountryCode :=
  Decoder.check .string fun s => Refusal.toFault (read s)

/-- The code of a currency in a JSON text, written exactly. -/
def Currency.decoder : Decoder Currency :=
  .name ofCode?

/-- The fields of an account. -/
def Account.shape : Shape Account :=
  mk <$> .field "id" .identifier
    <*> .field "customer_id" CustomerId.decoder
    <*> .field "country" CountryCode.decoder
    <*> .field "balances" (.list Balance.shape.decoder)
    <*> .field "created_at" .timestamp
    <*> .field "updated_at" .timestamp

end KeyedLedger
