import KeyedLedger.Entity.Balance
import KeyedLedger.Proofs.Money.Cents

/-! # Moving a balance

On money with two places, moving a balance is integer arithmetic: a credit adds cents unless the sum
passes the maximum, a debit takes cents unless there are too few. Neither rounds, overflows or
leaves a zero with a sign.
-/

namespace KeyedLedger

open Decimal Money

namespace Direction

/-- The cents of a balance after a move, unless the move is refused. -/
def moved? (direction : Direction) (available amount : Nat) : Option Nat :=
  match direction with
  | credit => if available + amount ≤ maxCents then some (available + amount) else none
  | debit => if amount ≤ available then some (available - amount) else none

/-- Why a move is refused. -/
def refusal (direction : Direction) (available requested : Decimal) : Refusal :=
  match direction with
  | credit => .balanceLimitExceeded available requested
  | debit => .insufficientFunds available requested

/-- What a move adds to a balance. -/
def signed (direction : Direction) (amount : Int) : Int :=
  match direction with
  | credit => amount
  | debit => -amount

theorem moved?_eq_some {direction : Direction} {available amount after : Nat}
    (h : direction.moved? available amount = some after) (hle : available ≤ maxCents) :
    (after : Int) = available + direction.signed amount ∧ after ≤ maxCents := by
  cases direction with
  | credit =>
      simp only [moved?] at h
      split at h
      next hfits =>
        cases h
        exact ⟨by simp [signed], hfits⟩
      next => simp at h
  | debit =>
      simp only [moved?] at h
      split at h
      next henough =>
        cases h
        exact ⟨by simp only [signed]; omega, by omega⟩
      next => simp at h

end Direction

namespace Decimal

theorem fit_of_room {n : Nat} (scale : Nat) (h : n < capacity) :
    fit n 0 scale = some (n, scale) := by
  have hround : roundEven n (tenTo 0) = n := by
    simp only [roundEven, tenTo_zero, Nat.div_one, Nat.mod_one]
    rw [if_neg (by omega)]
  cases scale <;> simp [fit, hround, h]

theorem ofUnits?_of_room {n scale : Nat} (hs : scale ≤ maxScale) (h : n < capacity) :
    ∃ d, ofUnits? n scale hs = some d ∧ d.negative = false ∧ d.mantissa = n ∧ d.scale = scale := by
  have hfit : fit (n : Int).natAbs 0 scale = some (n, scale) := fit_of_room scale h
  unfold ofUnits?
  split
  next hnone =>
    rw [hfit] at hnone
    simp at hnone
  next r hsome =>
    rw [hfit] at hsome
    cases hsome
    exact ⟨_, rfl, by simp, rfl, rfl⟩

end Decimal

namespace Money

theorem level_ofCents {n : Nat} (h : n < capacity) : (ofCents n).level 2 = n := by
  rw [level, signed_ofCents h]
  simp [ofCents, tenTo_zero]

theorem level_negate_ofCents {n : Nat} (h : n < capacity) :
    (ofCents n).negate.level 2 = -(n : Int) := by
  simp [level, negate, signed, ofCents, Nat.mod_eq_of_lt h, tenTo_zero]

theorem add?_ofCents {m n : Nat} (h : m + n < capacity) :
    (ofCents m).add? (ofCents n) = some (ofCents (m + n)) := by
  have hm : m < capacity := by omega
  have hn : n < capacity := by omega
  rw [add?]
  simp only [mantissa_ofCents hm, mantissa_ofCents hn]
  by_cases hzero : m = 0
  · rw [if_pos hzero, hzero, Nat.zero_add]
  by_cases hother : n = 0
  · rw [if_neg hzero, if_pos hother, hother, Nat.add_zero]
  rw [if_neg hzero, if_neg hother]
  have hlevel : (ofCents m).level 2 + (ofCents n).level 2 = ((m + n : Nat) : Int) := by
    rw [level_ofCents hm, level_ofCents hn]
    exact_mod_cast rfl
  obtain ⟨d, hd, hnegative, hmantissa, hscale⟩ := ofUnits?_of_room places_le_maxScale h
  refine Eq.trans ?_ (hd.trans (congrArg some (eq_of_parts hnegative ?_ hscale)))
  · exact congrArg (fun units => ofUnits? units 2 places_le_maxScale) hlevel
  rw [hmantissa, mantissa_ofCents h]

theorem sub?_ofCents {m n : Nat} (hm : m < capacity) (hle : n ≤ m) :
    (ofCents m).sub? (ofCents n) = some (ofCents (m - n)) := by
  have hn : n < capacity := by omega
  rw [sub?]
  simp only [mantissa_ofCents hm, mantissa_ofCents hn]
  by_cases hzero : n = 0
  · subst hzero
    rw [if_pos rfl, Nat.sub_zero]
    split
    next hm => rw [hm]
    · rfl
  have hpos : m ≠ 0 := by omega
  have hnegate : (ofCents n).negate.mantissa = n := mantissa_ofCents hn
  rw [if_neg hzero, add?, mantissa_ofCents hm, hnegate, if_neg hpos, if_neg hzero]
  have hlevel : (ofCents m).level 2 + (ofCents n).negate.level 2 = ((m - n : Nat) : Int) := by
    rw [level_ofCents hm, level_negate_ofCents hn]
    omega
  have hroom : m - n < capacity := by omega
  obtain ⟨d, hd, hnegative, hmantissa, hscale⟩ := ofUnits?_of_room places_le_maxScale hroom
  refine Eq.trans ?_ (hd.trans (congrArg some (eq_of_parts hnegative ?_ hscale)))
  · exact congrArg (fun units => ofUnits? units 2 places_le_maxScale) hlevel
  rw [hmantissa, mantissa_ofCents (by omega)]

end Money

namespace Balance

theorem eq_of_move {b after : Balance} {direction : Direction} {amount : Decimal} {now : Timestamp}
    (h : b.move direction amount now = .ok after) : ∃ available, after = { b with
      available := available, version := b.version + 1, updatedAt := now } := by
  rw [move] at h
  cases havailable : b.availableAfter direction amount with
  | error r => simp [havailable, bind, Except.bind] at h
  | ok available =>
      rw [havailable] at h
      exact ⟨_, (Except.ok.inj h).symm⟩

/-- The balance once a move has left it with a number of cents. -/
def movedTo (b : Balance) (cents : Nat) (now : Timestamp) : Balance :=
  { b with available := ofCents cents, version := b.version + 1, updatedAt := now }

/-- A move of a balance of cents by a valid amount is a move of integers. -/
theorem move_eq {b : Balance} {m n : Nat} (direction : Direction) (now : Timestamp)
    (hb : b.available = ofCents m) (hm : m ≤ maxCents) (hn : n ≤ maxCents) :
    b.move direction (ofCents n) now = match direction.moved? m n with
      | some after => .ok (b.movedTo after now)
      | none => .error (direction.refusal b.available (ofCents n)) := by
  have hroom : m + n < capacity := by simp only [maxCents, capacity] at *; omega
  have hm' : m < capacity := by omega
  have hn' : n < capacity := by omega
  cases direction with
  | credit =>
      have hlimit : ofCents (m + n) ≤ maximum ↔ m + n ≤ maxCents := by
        rw [maximum_eq_ofCents, ofCents_le_ofCents hroom maxCents_lt_capacity]
      simp only [move, availableAfter, hb, add?_ofCents hroom, hlimit, Direction.moved?,
        Direction.refusal]
      split
      · simp only [bind, Except.bind, pure, Except.pure, atScale_ofCents,
          movedTo]
      · rfl
  | debit =>
      simp only [move, availableAfter, hb, ofCents_le_ofCents hn' hm', Direction.moved?,
        Direction.refusal]
      split
      next hle =>
        simp only [sub?_ofCents hm' hle, Refusal.orElse, bind, Except.bind, pure, Except.pure,
          atScale_ofCents, movedTo]
      · rfl

end Balance

end KeyedLedger
