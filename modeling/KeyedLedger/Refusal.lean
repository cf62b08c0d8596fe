import KeyedLedger.Currency
import KeyedLedger.Decimal.Text
import KeyedLedger.Direction
import KeyedLedger.Money.Scale

/-! # Refusals

The rules of the domain refuse a value for one of these reasons. Each reason carries what
its wording shows, as it was given.
-/

namespace KeyedLedger

/-- Why the rules of the domain refuse a value. -/
inductive Refusal where
  | invalidAmount (amount : Decimal)
  | amountTooLarge (amount : Decimal)
  | balanceLimitExceeded (available requested : Decimal)
  | unsupportedCurrency (raw : String)
  | invalidDirection (raw : String)
  | invalidCountry (raw : String)
  | invalidCustomer (raw : String)
  | descriptionTooLong
  | noCurrencies
  | duplicateCurrency (currency : Currency)
  | insufficientFunds (available requested : Decimal)
deriving DecidableEq

namespace Refusal

/-- The most characters in a description. -/
def maxDescription : Nat := 255

/-- What is said of a refusal. -/
def message : Refusal → String
  | invalidAmount amount => s!"Invalid amount {amount}: must be positive with at most 2 decimal places"
  | amountTooLarge amount => s!"Amount {amount} exceeds the maximum of {Money.maximum}"
  | balanceLimitExceeded available requested =>
    s!"Balance limit exceeded: available {available}, credit {requested}"
  | unsupportedCurrency raw => s!"Unsupported currency: {raw}"
  | invalidDirection raw => s!"Invalid direction: {raw}"
  | invalidCountry raw => s!"Invalid country code: {raw}"
  | invalidCustomer raw => s!"Invalid customer id: {raw}"
  | descriptionTooLong => s!"Description exceeds {maxDescription} characters"
  | noCurrencies => "At least one currency is required"
  | duplicateCurrency currency => s!"Duplicate currency: {currency}"
  | insufficientFunds available requested =>
    s!"Insufficient funds: available {available}, requested {requested}"

/-- The value, or a refusal where there is none. -/
def orElse {α : Type} (r : Refusal) : Option α → Except Refusal α
  | some a => .ok a
  | none => .error r

end Refusal

/-- The currency that a text names. -/
def Currency.read (raw : String) : Except Refusal Currency :=
  Refusal.orElse (.unsupportedCurrency raw) (read? raw)

/-- The direction that a text names. -/
def Direction.read (raw : String) : Except Refusal Direction :=
  Refusal.orElse (.invalidDirection raw) (read? raw)

/-- A description, unless it is too long. -/
def checkDescription (text : String) : Except Refusal Unit :=
  if Refusal.maxDescription < text.length then .error .descriptionTooLong else .ok ()

end KeyedLedger
