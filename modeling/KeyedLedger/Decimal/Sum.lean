import KeyedLedger.Decimal.Basic

/-! # Sums and differences

A sum is exact when its digits have room at the larger of the two scales. Otherwise it
gives up places, as few as possible, rounding to the nearest with ties to the even
neighbour; a sum that has no room without any place does not exist.

A term that is zero leaves the other one as it is, scale included. Where two terms cancel, the
zero has no sign.
-/

namespace KeyedLedger.Decimal

/-- The quotient to the nearest whole number, a tie going to the even neighbour. -/
def roundEven (n d : Nat) : Nat :=
  let q := n / d
  let r := n % d
  if d < 2 * r ∨ (2 * r = d ∧ q % 2 = 1) then q + 1 else q

/-- The digits of `n` at `scale + dropped` places, given with as many places as have room,
at most `scale`. -/
def fit (n dropped : Nat) : (scale : Nat) → Option (Nat × Nat)
  | 0 => if roundEven n (tenTo dropped) < capacity then some (roundEven n (tenTo dropped), 0) else none
  | scale + 1 =>
    if roundEven n (tenTo dropped) < capacity then some (roundEven n (tenTo dropped), scale + 1)
    else fit n (dropped + 1) scale

theorem fit_spec {n k s : Nat} {r : Nat × Nat} (h : fit n k s = some r) :
    r.1 < capacity ∧ r.2 ≤ s := by
  induction s generalizing k with
  | zero =>
    simp only [fit] at h
    split at h
    · cases h
      exact ⟨‹_›, Nat.le_refl 0⟩
    · simp at h
  | succ s ih =>
    simp only [fit] at h
    split at h
    · cases h
      exact ⟨‹_›, Nat.le_refl _⟩
    · exact ⟨(ih h).1, Nat.le_succ_of_le (ih h).2⟩

/-- A whole number of units of the last place as a decimal, with at most `scale` places. -/
def ofUnits? (units : Int) (scale : Nat) (hs : scale ≤ maxScale) : Option Decimal :=
  match h : fit units.natAbs 0 scale with
  | none => none
  | some r => some {
      negative := units < 0
      mantissa := r.1
      scale := r.2
      mantissa_lt := (fit_spec h).1
      scale_le := Nat.le_trans (fit_spec h).2 hs }

/-- The digits of the number at a scale that is not below its own. -/
def level (d : Decimal) (scale : Nat) : Int :=
  d.signed * tenTo (scale - d.scale)

/-- The sum of two numbers, if it has room. -/
def add? (a b : Decimal) : Option Decimal :=
  if a.mantissa = 0 then some b
  else if b.mantissa = 0 then some a
  else
    let scale := max a.scale b.scale
    ofUnits? (a.level scale + b.level scale) scale (Nat.max_le.2 ⟨a.scale_le, b.scale_le⟩)

/-- The number with the other sign. -/
def negate (d : Decimal) : Decimal :=
  { d with negative := !d.negative }

/-- The difference of two numbers, if it has room. -/
def sub? (a b : Decimal) : Option Decimal :=
  if b.mantissa = 0 then
    if a.mantissa = 0 then some b else some a
  else add? a b.negate

end KeyedLedger.Decimal
