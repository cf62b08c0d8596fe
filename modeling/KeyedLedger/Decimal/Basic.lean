import KeyedLedger.PowerOfTen

/-! # Decimal numbers with a fixed capacity

A decimal is a sign, a whole number below `2 ^ 96` and a scale of at most 28: the number of
its digits that stand behind the point. The scale is part of the value, so `5` and `5.00`
differ although they compare as equal, and a zero keeps its scale and its sign.

Rescaling changes the scale and keeps the number as far as the capacity allows. It rounds
half away from zero on the first digit dropped, and it scales up only while the digits fit.
-/

namespace KeyedLedger

/-- A sign, the digits as a whole number, and how many of them stand behind the point. -/
structure Decimal where
  negative : Bool
  mantissa : Nat
  scale : Nat
  mantissa_lt : mantissa < 79228162514264337593543950336
  scale_le : scale ≤ 28
deriving DecidableEq

namespace Decimal

/-- The first whole number that has no room as a mantissa: `2 ^ 96`. -/
abbrev capacity : Nat := 79228162514264337593543950336

/-- The largest number of digits behind the point. -/
abbrev maxScale : Nat := 28

/-- Zero with the given number of places, without a sign. -/
def zero (places : Fin 29) : Decimal where
  negative := false
  mantissa := 0
  scale := places
  mantissa_lt := by decide
  scale_le := by omega

instance : Inhabited Decimal := ⟨zero 0⟩

/-- The digits with their sign, as a whole number of units of the last place. -/
def signed (d : Decimal) : Int :=
  if d.negative then -(d.mantissa : Int) else d.mantissa

/-- Order by number: the scales are levelled by cross multiplication. -/
instance : LE Decimal where
  le a b := a.signed * tenTo b.scale ≤ b.signed * tenTo a.scale

instance : LT Decimal where
  lt a b := a.signed * tenTo b.scale < b.signed * tenTo a.scale

instance (a b : Decimal) : Decidable (a ≤ b) :=
  inferInstanceAs (Decidable (_ ≤ (_ : Int)))

instance (a b : Decimal) : Decidable (a < b) :=
  inferInstanceAs (Decidable (_ < (_ : Int)))

/-- The places left of `scale` once the trailing zeros behind the point are dropped. -/
def placesOf (mantissa : Nat) : (scale : Nat) → Nat
  | 0 => 0
  | scale + 1 => if mantissa % 10 = 0 then placesOf (mantissa / 10) scale else scale + 1

/-- The fewest places behind the point that hold the number exactly. -/
def places (d : Decimal) : Nat :=
  placesOf d.mantissa d.scale

/-- The mantissa and scale after appending zeros up to `target` places, as long as the
digits have room. -/
def raise (mantissa scale : Nat) : (steps : Nat) → Nat × Nat
  | 0 => (mantissa, scale)
  | steps + 1 =>
    if mantissa * 10 < capacity then raise (mantissa * 10) (scale + 1) steps
    else (mantissa, scale)

theorem raise_lt {m s k : Nat} (h : m < capacity) : (raise m s k).1 < capacity := by
  induction k generalizing m s with
  | zero => exact h
  | succ k ih =>
    rw [raise]
    split
    · exact ih ‹_›
    · exact h

theorem raise_scale_le (m s k : Nat) : (raise m s k).2 ≤ s + k := by
  induction k generalizing m s with
  | zero => simp [raise]
  | succ k ih =>
    rw [raise]
    split
    · exact Nat.le_trans (ih _ _) (by omega)
    · exact Nat.le_add_right s (k + 1)

/-- The whole number without its last `steps + 1` digits, one more if the first digit
dropped is 5 or above. -/
def drop (mantissa steps : Nat) : Nat :=
  let kept := mantissa / tenTo steps
  if 5 ≤ kept % 10 then kept / 10 + 1 else kept / 10

theorem drop_lt {m k : Nat} (h : m < capacity) : drop m k < capacity := by
  have hk : m / tenTo k ≤ m := Nat.div_le_self m _
  simp only [drop, capacity] at *
  split <;> omega

/-- The number with `target` places behind the point, or as close to that as it can come. -/
def rescale (d : Decimal) (target : Fin 29) : Decimal :=
  if h : target < d.scale then
    { d with
      mantissa := drop d.mantissa (d.scale - target - 1)
      scale := target
      mantissa_lt := drop_lt d.mantissa_lt
      scale_le := by omega }
  else
    { d with
      mantissa := (raise d.mantissa d.scale (target - d.scale)).1
      scale := (raise d.mantissa d.scale (target - d.scale)).2
      mantissa_lt := raise_lt d.mantissa_lt
      scale_le := by
        have := raise_scale_le d.mantissa d.scale (target - d.scale)
        omega }

end Decimal

end KeyedLedger
