import KeyedLedger.Decimal.Basic

/-! # Money

Money is held with two places behind the point, up to a maximum of nineteen digits.
-/

namespace KeyedLedger.Money

/-- The places behind the point that the ledger keeps. -/
def places : Fin 29 := ⟨2, by decide⟩

/-- The number with two places. -/
def atScale (amount : Decimal) : Decimal :=
  amount.rescale places

/-- Zero with two places. -/
def zero : Decimal :=
  Decimal.zero places

/-- The largest amount and the largest balance. -/
def maximum : Decimal where
  negative := false
  mantissa := 9999999999999999999
  scale := 2
  mantissa_lt := by decide
  scale_le := by decide

end KeyedLedger.Money
