import KeyedLedger.Money.Amount
import KeyedLedger.Proofs.Decimal.Value

/-! # Money as a whole number of hundredths

With two places behind the point, money is a whole number of cents. A decimal denotes cents when its
number is positive and a whole number of hundredths, whatever its scale. Validating an amount
accepts exactly the decimals that denote no more cents than the maximum, and puts them at two places
without changing the number.
-/

namespace KeyedLedger

namespace Decimal

theorem eq_of_parts {a b : Decimal} (hnegative : a.negative = b.negative)
    (hmantissa : a.mantissa = b.mantissa) (hscale : a.scale = b.scale) : a = b := by
  cases a
  cases b
  simp_all

/-- The positive whole number of hundredths that a decimal stands for, if it stands for one. -/
def cents? (d : Decimal) : Option Nat :=
  if 0 < d.toRat ∧ (d.toRat * 100).den = 1 then some (d.toRat * 100).num.toNat else none

theorem cents?_eq_some_iff {d : Decimal} {n : Nat} :
    d.cents? = some n ↔ 0 < n ∧ d.toRat = n / 100 := by
  rw [cents?]
  constructor
  · intro h
    split at h
    next hd =>
      have hnum : ((d.toRat * 100).num : ℚ) = d.toRat * 100 := Rat.coe_int_num_of_den_eq_one hd.2
      have hpos : 0 < (d.toRat * 100).num := Rat.num_pos.mpr (by linarith [hd.1])
      rw [Option.some.injEq] at h
      subst h
      refine ⟨by omega, ?_⟩
      have hcast : (((d.toRat * 100).num.toNat : Nat) : ℚ) = ((d.toRat * 100).num : ℚ) := by
        exact_mod_cast Int.toNat_of_nonneg hpos.le
      rw [hcast, hnum]
      ring
    next => exact absurd h (by simp)
  · rintro ⟨hn, hd⟩
    have hmul : d.toRat * 100 = (n : ℚ) := by rw [hd]; ring
    have hpos : 0 < d.toRat := by
      rw [hd]
      have : (0 : ℚ) < n := by exact_mod_cast hn
      positivity
    rw [hmul, if_pos ⟨hpos, Rat.den_natCast n⟩, Rat.num_natCast, Int.toNat_natCast]

/-- A decimal denotes no cents when it is not positive or has more than two places. -/
theorem cents?_eq_none_iff (d : Decimal) :
    d.cents? = none ↔ d.toRat ≤ 0 ∨ 2 < d.places := by
  have hplaces : d.places ≤ 2 ↔ ∃ n : Int, d.toRat * 100 = n := by
    rw [places_le_iff]
    norm_num [tenTo]
  rw [cents?, ← Nat.not_le, hplaces]
  split
  next h =>
    have hnum : ((d.toRat * 100).num : ℚ) = d.toRat * 100 := Rat.coe_int_num_of_den_eq_one h.2
    simp only [reduceCtorEq, false_iff, not_or, not_le, not_not]
    exact ⟨h.1, _, hnum.symm⟩
  next h =>
    simp only [true_iff]
    by_contra hnot
    simp only [not_or, not_le, not_not] at hnot
    obtain ⟨hpos, n, hn⟩ := hnot
    exact h ⟨hpos, by rw [hn]; exact Rat.den_intCast n⟩

theorem raise_eq {m k : Nat} (s : Nat) (h : m * tenTo k < capacity) :
    raise m s k = (m * tenTo k, s + k) := by
  induction k generalizing m s with
  | zero => simp [raise, tenTo_zero]
  | succ k ih =>
      have hsplit : m * tenTo (k + 1) = m * 10 * tenTo k := by
        rw [tenTo_succ, Nat.mul_comm (tenTo k), Nat.mul_assoc]
      rw [hsplit] at h ⊢
      have hfits : m * 10 < capacity :=
        Nat.lt_of_le_of_lt (Nat.le_mul_of_pos_right _ (tenTo_pos k)) h
      rw [raise, if_pos hfits, ih (s + 1) h]
      simp only [Prod.mk.injEq, true_and]
      omega

theorem drop_mul_tenTo (n k : Nat) : drop (n * tenTo (k + 1)) k = n := by
  have hkept : n * tenTo (k + 1) / tenTo k = n * 10 := by
    rw [tenTo_succ, Nat.mul_comm (tenTo k), ← Nat.mul_assoc]
    exact Nat.mul_div_cancel _ (tenTo_pos k)
  simp only [drop, hkept]
  rw [if_neg (by omega)]
  omega

end Decimal

namespace Money

open Decimal

/-- The most cents of an amount or a balance. -/
def maxCents : Nat := 9999999999999999999

theorem maxCents_lt_capacity : maxCents < capacity := by
  decide

theorem places_le_maxScale : 2 ≤ maxScale := by
  decide

/-- A number of cents as a decimal with two places. -/
def ofCents (cents : Nat) : Decimal where
  negative := false
  mantissa := cents % capacity
  scale := 2
  mantissa_lt := Nat.mod_lt _ (by decide)
  scale_le := places_le_maxScale

theorem mantissa_ofCents {n : Nat} (h : n < capacity) : (ofCents n).mantissa = n :=
  Nat.mod_eq_of_lt h

theorem signed_ofCents {n : Nat} (h : n < capacity) : (ofCents n).signed = n := by
  simp [signed, ofCents, Nat.mod_eq_of_lt h]

theorem toRat_ofCents {n : Nat} (h : n < capacity) : (ofCents n).toRat = n / 100 := by
  rw [toRat, signed_ofCents h]
  simp [ofCents, tenTo]

theorem ofCents_le_ofCents {m n : Nat} (hm : m < capacity) (hn : n < capacity) :
    ofCents m ≤ ofCents n ↔ m ≤ n := by
  rw [le_iff_toRat_le, toRat_ofCents hm, toRat_ofCents hn,
    div_le_div_iff_of_pos_right (by norm_num)]
  exact Nat.cast_le

theorem maximum_eq_ofCents : maximum = ofCents maxCents := by
  decide

theorem zero_eq_ofCents : zero = ofCents 0 := by
  decide

theorem toRat_maximum : maximum.toRat = maxCents / 100 := by
  rw [maximum_eq_ofCents, toRat_ofCents maxCents_lt_capacity]

theorem atScale_ofCents {n : Nat} : atScale (ofCents n) = ofCents n :=
  eq_of_parts rfl rfl rfl

/-! ## Putting cents at two places -/

theorem mantissa_of_cents? {d : Decimal} {n : Nat} (hd : d.cents? = some n) :
    d.negative = false ∧ d.mantissa * 100 = n * tenTo d.scale := by
  obtain ⟨hpos, hrat⟩ := cents?_eq_some_iff.mp hd
  have hscale := tenTo_cast_pos d.scale
  have hsigned : (d.signed : ℚ) * 100 = n * tenTo d.scale := by
    rw [toRat, div_eq_div_iff hscale.ne' (by norm_num)] at hrat
    exact hrat
  have hcross : d.signed * 100 = n * tenTo d.scale := by exact_mod_cast hsigned
  -- With a sign, the number would not be positive.
  have hnegative : d.negative = false := by
    by_contra hneg
    rw [Bool.not_eq_false] at hneg
    have : 0 < n * tenTo d.scale := Nat.mul_pos hpos (tenTo_pos _)
    simp only [signed, hneg, if_true] at hcross
    omega
  simp only [signed, hnegative, Bool.false_eq_true, if_false] at hcross
  exact ⟨hnegative, by exact_mod_cast hcross⟩

theorem mantissa_eq_of_two_lt {m n k : Nat} (h : m * 100 = n * tenTo (k + 3)) :
    m = n * tenTo (k + 1) := by
  rw [tenTo_succ, tenTo_succ] at h
  have hfactor : n * (tenTo (k + 1) * 10 * 10) = n * tenTo (k + 1) * 100 := by ring
  omega

theorem mantissa_mul_of_le_two {m n s : Nat} (h : m * 100 = n * tenTo s) (hs : s ≤ 2) :
    m * tenTo (2 - s) = n := by
  have hsplit : tenTo s * tenTo (2 - s) = 100 := by
    rw [← tenTo_add, Nat.add_sub_cancel' hs]
    rfl
  have : m * tenTo (2 - s) * 100 = n * 100 := by
    calc m * tenTo (2 - s) * 100 = m * 100 * tenTo (2 - s) := by ring
      _ = n * (tenTo s * tenTo (2 - s)) := by rw [h]; ring
      _ = n * 100 := by rw [hsplit]
  omega

/-- Putting a decimal at two places keeps its number, if that is a whole number of hundredths with
room. -/
theorem atScale_eq_ofCents {d : Decimal} {n : Nat} (hd : d.cents? = some n)
    (hn : n < capacity) : atScale d = ofCents n := by
  obtain ⟨hnegative, hmantissa⟩ := mantissa_of_cents? hd
  have htarget : (places : Nat) = 2 := rfl
  rw [atScale, rescale]
  split
  next hlt =>
    obtain ⟨k, hk⟩ : ∃ k, d.scale = k + 3 := ⟨d.scale - 3, by omega⟩
    rw [hk] at hmantissa
    apply eq_of_parts hnegative
    · rw [mantissa_ofCents hn]
      change Decimal.drop d.mantissa (d.scale - 2 - 1) = n
      rw [mantissa_eq_of_two_lt hmantissa, hk, show k + 3 - 2 - 1 = k by omega, drop_mul_tenTo]
    · rfl
  next hge =>
    have hle : d.scale ≤ 2 := by omega
    have hdigits := mantissa_mul_of_le_two hmantissa hle
    have hraise : raise d.mantissa d.scale (2 - d.scale) = (n, 2) := by
      rw [raise_eq d.scale (by rw [hdigits]; exact hn), hdigits, Nat.add_sub_cancel' hle]
    apply eq_of_parts hnegative
    · rw [mantissa_ofCents hn]
      exact congrArg Prod.fst hraise
    · exact congrArg Prod.snd hraise

/-! ## Valid amounts -/

/-- An amount is valid exactly when it denotes cents, no more than the maximum, and is then those
cents with two places. -/
theorem validate_eq (amount : Decimal) :
    validate amount = match amount.cents? with
      | none => .error (.invalidAmount amount)
      | some n => if maxCents < n then .error (.amountTooLarge amount) else .ok (ofCents n) := by
  have hinvalid : (amount ≤ Decimal.zero ⟨0, by decide⟩ ∨ places.val < amount.places) ↔
      amount.cents? = none := by
    rw [cents?_eq_none_iff, le_iff_toRat_le, toRat_zero]
    exact Iff.rfl
  rw [validate]
  cases hcents : amount.cents? with
  | none => rw [if_pos (hinvalid.mpr hcents)]
  | some n =>
      have hlarge : maximum < amount ↔ maxCents < n := by
        rw [lt_iff_toRat_lt, toRat_maximum, (cents?_eq_some_iff.mp hcents).2,
          div_lt_div_iff_of_pos_right (by norm_num)]
        exact Nat.cast_lt
      rw [if_neg (by rw [hinvalid, hcents]; simp)]
      simp only [hlarge]
      split
      · rfl
      next hle =>
        have hroom : n < capacity := lt_of_le_of_lt (by omega) maxCents_lt_capacity
        rw [atScale_eq_ofCents hcents hroom]

theorem validate_ok {amount valid : Decimal} (h : validate amount = .ok valid) :
    ∃ n, amount.cents? = some n ∧ 0 < n ∧ n ≤ maxCents ∧ valid = ofCents n := by
  rw [validate_eq] at h
  cases hcents : amount.cents? with
  | none => simp [hcents] at h
  | some n =>
      simp only [hcents] at h
      split at h
      · simp at h
      next hle =>
        cases h
        exact ⟨n, rfl, (cents?_eq_some_iff.mp hcents).1, by omega, rfl⟩

theorem cents?_ofCents {n : Nat} (hpos : 0 < n) (hle : n ≤ maxCents) :
    (ofCents n).cents? = some n :=
  cents?_eq_some_iff.mpr ⟨hpos, toRat_ofCents (lt_of_le_of_lt hle maxCents_lt_capacity)⟩

/-- An amount that has been found valid is valid as it is. -/
theorem validate_ofCents {n : Nat} (hpos : 0 < n) (hle : n ≤ maxCents) :
    validate (ofCents n) = .ok (ofCents n) := by
  rw [validate_eq, cents?_ofCents hpos hle]
  exact if_neg (Nat.not_lt.mpr hle)

end Money

end KeyedLedger
