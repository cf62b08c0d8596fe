import KeyedLedger.Refusal

/-! # Amounts

An amount is a positive whole number of hundredths, at most `Money.maximum`.
-/

namespace KeyedLedger.Money

/-- The amount with two places, if it is one. A number that is not positive or has a part
smaller than a hundredth is refused before one that is too large. -/
def validate (amount : Decimal) : Except Refusal Decimal :=
  if amount ≤ Decimal.zero ⟨0, by decide⟩ ∨ places.val < amount.places then .error (.invalidAmount amount)
  else if maximum < amount then .error (.amountTooLarge amount)
  else .ok (atScale amount)

end KeyedLedger.Money
