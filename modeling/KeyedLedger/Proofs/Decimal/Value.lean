import KeyedLedger.Decimal.Sum
import Mathlib.Algebra.Order.Field.Rat
import Mathlib.Tactic.FieldSimp
import Mathlib.Tactic.Linarith
import Mathlib.Tactic.NormNum
import Mathlib.Tactic.Positivity
import Mathlib.Tactic.Ring

/-! # The number that a decimal stands for

A decimal stands for a rational number. Comparing decimals compares these numbers, whatever the
scales, and the fewest places that hold a decimal exactly are read off its number: `k` places are
enough when multiplying with `10 ^ k` leaves a whole number.
-/

namespace KeyedLedger.Decimal

/-- The number that a decimal stands for. -/
def toRat (d : Decimal) : ℚ :=
  (d.signed : ℚ) / (tenTo d.scale : ℚ)

theorem tenTo_cast_pos (k : Nat) : (0 : ℚ) < (tenTo k : ℚ) := by
  exact_mod_cast tenTo_pos k

theorem tenTo_add (j k : Nat) : tenTo (j + k) = tenTo j * tenTo k :=
  Nat.pow_add 10 j k

/-- Levelling the scales by cross multiplication compares the numbers. -/
theorem le_iff_toRat_le (a b : Decimal) : a ≤ b ↔ a.toRat ≤ b.toRat := by
  have ha := tenTo_cast_pos a.scale
  have hb := tenTo_cast_pos b.scale
  rw [toRat, toRat, div_le_div_iff₀ ha hb]
  change a.signed * (tenTo b.scale : Int) ≤ b.signed * (tenTo a.scale : Int) ↔ _
  exact_mod_cast Iff.rfl

theorem lt_iff_toRat_lt (a b : Decimal) : a < b ↔ a.toRat < b.toRat := by
  have ha := tenTo_cast_pos a.scale
  have hb := tenTo_cast_pos b.scale
  rw [toRat, toRat, div_lt_div_iff₀ ha hb]
  change a.signed * (tenTo b.scale : Int) < b.signed * (tenTo a.scale : Int) ↔ _
  exact_mod_cast Iff.rfl

theorem toRat_zero (places : Fin 29) : (zero places).toRat = 0 := by
  simp [toRat, zero, signed]

/-! ## Places -/

theorem tenTo_sub_of_le {j k : Nat} (h : k ≤ j) : tenTo (k - j) = 1 := by
  rw [Nat.sub_eq_zero_of_le h, tenTo_zero]

/-- `k` places are enough when the digits behind them are zeros. -/
theorem placesOf_le_iff (m s k : Nat) : placesOf m s ≤ k ↔ tenTo (s - k) ∣ m := by
  induction s generalizing m with
  | zero => simp [placesOf, tenTo_zero]
  | succ s ih =>
      rw [placesOf]
      by_cases hk : s + 1 ≤ k
      · rw [tenTo_sub_of_le hk]
        have hbound : placesOf (m / 10) s ≤ k := by
          rw [ih, tenTo_sub_of_le (by omega)]
          exact one_dvd _
        split <;> simp [hbound, hk]
      · have hsucc : tenTo (s + 1 - k) = 10 * tenTo (s - k) := by
          rw [show s + 1 - k = s - k + 1 by omega, tenTo_succ, Nat.mul_comm]
        rw [hsucc]
        split
        next hzero =>
          obtain ⟨n, rfl⟩ := Nat.dvd_of_mod_eq_zero hzero
          rw [Nat.mul_div_cancel_left n (by decide), ih, Nat.mul_dvd_mul_iff_left (by decide)]
        next hne =>
          -- A last digit that is no zero has to be kept.
          refine ⟨fun h => absurd h hk, fun h => ?_⟩
          exact absurd (Nat.mod_eq_zero_of_dvd ((Nat.dvd_mul_right 10 _).trans h)) hne

/-- The digits that are kept with `k` places, for a number that has no more. -/
theorem toRat_mul_tenTo {d : Decimal} {k : Nat} (hk : k ≤ d.scale) :
    d.toRat * tenTo k = (d.signed : ℚ) / tenTo (d.scale - k) := by
  have hsplit : tenTo d.scale = tenTo (d.scale - k) * tenTo k := by
    rw [← tenTo_add, Nat.sub_add_cancel hk]
  have hleft := (tenTo_cast_pos (d.scale - k)).ne'
  have hright := (tenTo_cast_pos k).ne'
  rw [toRat, hsplit]
  push_cast
  field_simp

theorem dvd_signed_iff (d : Decimal) (n : Nat) : (n : Int) ∣ d.signed ↔ n ∣ d.mantissa := by
  rw [signed]
  split
  · rw [Int.dvd_neg]
    exact Int.natCast_dvd_natCast
  · exact Int.natCast_dvd_natCast

/-- The fewest places that hold a number exactly: `k` are enough when multiplying with `10 ^ k`
leaves a whole number. -/
theorem places_le_iff (d : Decimal) (k : Nat) :
    d.places ≤ k ↔ ∃ n : Int, d.toRat * tenTo k = n := by
  rw [places, placesOf_le_iff]
  by_cases hk : k ≤ d.scale
  · rw [toRat_mul_tenTo hk, ← dvd_signed_iff]
    have hpos := (tenTo_cast_pos (d.scale - k)).ne'
    constructor
    · rintro ⟨n, hn⟩
      refine ⟨n, ?_⟩
      rw [hn]
      push_cast
      field_simp
    · rintro ⟨n, hn⟩
      refine ⟨n, ?_⟩
      rw [div_eq_iff hpos] at hn
      have : d.signed = n * (tenTo (d.scale - k) : Int) := by exact_mod_cast hn
      rw [this, Int.mul_comm]
  · rw [tenTo_sub_of_le (by omega)]
    refine ⟨fun _ => ⟨d.signed * tenTo (k - d.scale), ?_⟩, fun _ => one_dvd _⟩
    have hsplit : tenTo k = tenTo (k - d.scale) * tenTo d.scale := by
      rw [← tenTo_add, Nat.sub_add_cancel (by omega)]
    have hpos := (tenTo_cast_pos d.scale).ne'
    rw [toRat, hsplit]
    push_cast
    field_simp

end KeyedLedger.Decimal
