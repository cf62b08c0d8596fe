import KeyedLedger.Proofs.Money.Cents

/-! # Validating an amount is exact

Whatever the digits, the scale and the sign of a decimal, whether it is a valid amount depends on its
number alone: it has to be positive, a whole number of hundredths, and at most the maximum. Putting
a valid amount at two places loses nothing, so a valid amount is valid as it is.
-/

namespace KeyedLedger

namespace Decimal

/-- The decimal stands for a positive whole number of hundredths. -/
structure Payable (d : Decimal) : Prop where
  pos : 0 < d.toRat
  whole : ∃ n : Int, d.toRat * 100 = n

theorem payable_iff_cents? (d : Decimal) : d.Payable ↔ ∃ n, d.cents? = some n := by
  constructor
  · rintro ⟨hpos, n, hn⟩
    have hcast : (0 : ℚ) < n := by
      rw [← hn]
      positivity
    have hnpos : 0 < n := by exact_mod_cast hcast
    have hnat : ((n.toNat : Nat) : ℚ) = n := by exact_mod_cast Int.toNat_of_nonneg hnpos.le
    refine ⟨n.toNat, cents?_eq_some_iff.mpr ⟨by omega, ?_⟩⟩
    rw [hnat, ← hn]
    ring
  · rintro ⟨n, hcents⟩
    obtain ⟨hn, hrat⟩ := cents?_eq_some_iff.mp hcents
    have hcast : (0 : ℚ) < n := by exact_mod_cast hn
    refine ⟨?_, n, ?_⟩
    · rw [hrat]
      positivity
    · rw [hrat]
      push_cast
      ring

end Decimal

namespace Money

open Decimal

variable {amount : Decimal}

/-! ## The three ends of a validation -/

theorem validate_eq_ok_iff {valid : Decimal} :
    validate amount = .ok valid ↔
      ∃ n, amount.cents? = some n ∧ n ≤ maxCents ∧ valid = ofCents n := by
  constructor
  · intro h
    obtain ⟨n, hcents, -, hle, hvalid⟩ := validate_ok h
    exact ⟨n, hcents, hle, hvalid⟩
  · rintro ⟨n, hcents, hle, rfl⟩
    rw [validate_eq, hcents]
    exact if_neg (Nat.not_lt.mpr hle)

theorem validate_eq_tooLarge_iff :
    validate amount = .error (.amountTooLarge amount) ↔
      ∃ n, amount.cents? = some n ∧ maxCents < n := by
  rw [validate_eq]
  cases amount.cents? with
  | none => simp
  | some n =>
      by_cases hlarge : maxCents < n
      · simp [hlarge]
      · simp [hlarge]

theorem validate_eq_invalid_iff :
    validate amount = .error (.invalidAmount amount) ↔ amount.cents? = none := by
  rw [validate_eq]
  cases amount.cents? with
  | none => simp
  | some n =>
      by_cases hlarge : maxCents < n
      · simp [hlarge]
      · simp [hlarge]

/-! ## Validity by the number -/

theorem maxCents_div : (maxCents : ℚ) / 100 = 99999999999999999.99 := by
  norm_num [maxCents]

theorem toRat_le_maximum_iff {n : Nat} (h : amount.cents? = some n) :
    amount.toRat ≤ 99999999999999999.99 ↔ n ≤ maxCents := by
  rw [(cents?_eq_some_iff.mp h).2, ← maxCents_div, div_le_div_iff_of_pos_right (by norm_num)]
  exact Nat.cast_le

/-- What validating an amount comes to is told by the number of the amount, exactly. -/
structure ValidatedExactly (amount : Decimal) : Prop where
  /-- An amount is valid if its number is positive, a whole number of hundredths and not above the
  maximum, and only then. -/
  accepted : (∃ valid, validate amount = .ok valid) ↔
    amount.Payable ∧ amount.toRat ≤ 99999999999999999.99
  /-- A valid amount is given back with two places, the same number, and valid as it is. -/
  kept : ∀ valid, validate amount = .ok valid →
    valid.scale = 2 ∧ valid.toRat = amount.toRat ∧ validate valid = .ok valid
  /-- An amount is too large if it would be valid but for the maximum. -/
  tooLarge : validate amount = .error (.amountTooLarge amount) ↔
    amount.Payable ∧ 99999999999999999.99 < amount.toRat
  /-- Every other amount is invalid. -/
  invalid : validate amount = .error (.invalidAmount amount) ↔ ¬ amount.Payable

theorem exists_validate_iff : (∃ valid, validate amount = .ok valid) ↔
    amount.Payable ∧ amount.toRat ≤ 99999999999999999.99 := by
  rw [payable_iff_cents?]
  constructor
  · rintro ⟨valid, hvalid⟩
    obtain ⟨n, hcents, hle, -⟩ := validate_eq_ok_iff.mp hvalid
    exact ⟨⟨n, hcents⟩, (toRat_le_maximum_iff hcents).mpr hle⟩
  · rintro ⟨⟨n, hcents⟩, hle⟩
    exact ⟨ofCents n, validate_eq_ok_iff.mpr ⟨n, hcents, (toRat_le_maximum_iff hcents).mp hle, rfl⟩⟩

theorem validate_keeps {valid : Decimal} (h : validate amount = .ok valid) :
    valid.scale = 2 ∧ valid.toRat = amount.toRat ∧ validate valid = .ok valid := by
  obtain ⟨n, hcents, hle, rfl⟩ := validate_eq_ok_iff.mp h
  obtain ⟨hpos, hrat⟩ := cents?_eq_some_iff.mp hcents
  refine ⟨rfl, ?_, validate_ofCents hpos hle⟩
  rw [toRat_ofCents (lt_of_le_of_lt hle maxCents_lt_capacity), hrat]

/-- Validating rounds nothing away, whatever the digits, the scale and the sign of the amount. -/
theorem validate_exact (amount : Decimal) : ValidatedExactly amount where
  accepted := exists_validate_iff
  kept _ := validate_keeps
  tooLarge := by
    rw [validate_eq_tooLarge_iff, payable_iff_cents?]
    constructor
    · rintro ⟨n, hcents, hlarge⟩
      refine ⟨⟨n, hcents⟩, ?_⟩
      rw [← not_le, toRat_le_maximum_iff hcents]
      exact Nat.not_le.mpr hlarge
    · rintro ⟨⟨n, hcents⟩, hlarge⟩
      rw [← not_le, toRat_le_maximum_iff hcents] at hlarge
      exact ⟨n, hcents, Nat.not_le.mp hlarge⟩
  invalid := by
    rw [validate_eq_invalid_iff, payable_iff_cents?]
    cases amount.cents? with
    | none => simp
    | some n => simp

end Money

end KeyedLedger
