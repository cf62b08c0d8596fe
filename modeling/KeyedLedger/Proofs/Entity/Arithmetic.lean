import KeyedLedger.Proofs.Entity.Move
import KeyedLedger.Proofs.Money.Validity

/-! # Balances are moved by whole cents

A balance within its bounds has two places behind the point, and holds neither less than nothing nor
more than the maximum. Moving it by a valid amount adds or subtracts whole numbers of cents: the move
is carried out exactly if the sum or the difference is within the bounds, and moving the same amount
back restores what was available. A zero with a sign counts as zero, and no move leaves one.
-/

namespace KeyedLedger

open Decimal Money

namespace Decimal

theorem signed_eq_of_nonneg {d : Decimal} (h : 0 ≤ d.toRat) : d.signed = d.mantissa := by
  have hscale := tenTo_cast_pos d.scale
  have hsigned : 0 ≤ d.signed := by
    have hmul : 0 ≤ d.toRat * tenTo d.scale := mul_nonneg h hscale.le
    rw [toRat, div_mul_cancel₀ _ hscale.ne'] at hmul
    exact_mod_cast hmul
  rw [signed] at hsigned ⊢
  split
  next hnegative =>
    rw [if_pos hnegative] at hsigned
    omega
  next => rfl

end Decimal

namespace Direction

/-- A move of a number of cents is admitted: a credit if the sum does not pass the maximum, a debit
if the difference is not negative. -/
def Admits (direction : Direction) (held paid : Int) : Prop :=
  match direction with
  | credit => held + paid ≤ maxCents
  | debit => 0 ≤ held - paid

/-- The direction of a move that takes another one back. -/
def opposite : Direction → Direction
  | credit => debit
  | debit => credit

theorem moved?_of_admits {direction : Direction} {held paid : Nat}
    (h : direction.Admits held paid) :
    ∃ after : Nat, direction.moved? held paid = some after ∧
      (after : Int) = held + direction.signed paid := by
  cases direction with
  | credit =>
      simp only [Admits] at h
      exact ⟨held + paid, if_pos (by omega), by simp [signed]⟩
  | debit =>
      simp only [Admits] at h
      have hle : paid ≤ held := by omega
      refine ⟨held - paid, if_pos hle, ?_⟩
      simp only [signed]
      omega

theorem moved?_of_not_admits {direction : Direction} {held paid : Nat}
    (h : ¬ direction.Admits held paid) : direction.moved? held paid = none := by
  cases direction with
  | credit =>
      simp only [Admits] at h
      exact if_neg (by omega)
  | debit =>
      simp only [Admits] at h
      exact if_neg (by omega)

/-- What a move has left can be moved back. -/
theorem moved?_opposite {direction : Direction} {held paid after : Nat} (hheld : held ≤ maxCents)
    (h : direction.moved? held paid = some after) :
    direction.opposite.moved? after paid = some held := by
  cases direction with
  | credit =>
      simp only [moved?] at h
      split at h
      next =>
        cases h
        simp [opposite, moved?]
      next => simp at h
  | debit =>
      simp only [moved?] at h
      split at h
      next hle =>
        cases h
        simp only [opposite, moved?]
        rw [Nat.sub_add_cancel hle, if_pos hheld]
      next => simp at h

end Direction

namespace Balance

/-- What the balance holds has two places, and is neither negative nor more than the maximum. -/
structure Bounded (b : Balance) : Prop where
  scale : b.available.scale = 2
  nonneg : 0 ≤ b.available.toRat
  le_maximum : b.available.toRat ≤ 99999999999999999.99

variable {b : Balance}

/-- The digits of a balance are its cents. -/
theorem Bounded.toRat_eq (h : b.Bounded) : b.available.toRat = b.available.mantissa / 100 := by
  rw [toRat, signed_eq_of_nonneg h.nonneg, h.scale]
  norm_num [tenTo]

theorem Bounded.mantissa_le (h : b.Bounded) : b.available.mantissa ≤ maxCents := by
  have hle := h.le_maximum
  rw [h.toRat_eq, ← maxCents_div, div_le_div_iff_of_pos_right (by norm_num)] at hle
  exact_mod_cast hle

/-- What a balance holds is a number of cents, or a zero with a sign. -/
theorem Bounded.available_cases (h : b.Bounded) :
    b.available = ofCents b.available.mantissa ∨
      b.available = Money.zero.negate ∧ b.available.mantissa = 0 := by
  have hsigned := signed_eq_of_nonneg h.nonneg
  cases hnegative : b.available.negative with
  | false =>
      left
      apply eq_of_parts hnegative
      · rw [mantissa_ofCents b.available.mantissa_lt]
      · exact h.scale
  | true =>
      right
      have hzero : b.available.mantissa = 0 := by
        rw [Decimal.signed, if_pos hnegative] at hsigned
        omega
      exact ⟨eq_of_parts hnegative hzero h.scale, hzero⟩

/-- A zero with a sign is moved like one without. -/
theorem move_of_signed_zero {n : Nat} (direction : Direction) (now : Timestamp)
    (hb : b.available = Money.zero.negate) (hpos : 0 < n) (hn : n ≤ maxCents) :
    b.move direction (ofCents n) now = match direction.moved? 0 n with
      | some after => .ok (b.movedTo after now)
      | none => .error (direction.refusal b.available (ofCents n)) := by
  have hroom : n < capacity := lt_of_le_of_lt hn maxCents_lt_capacity
  cases direction with
  | credit =>
      have hsum : Money.zero.negate.add? (ofCents n) = some (ofCents n) := if_pos rfl
      have hlimit : ofCents n ≤ maximum := by
        rw [maximum_eq_ofCents, ofCents_le_ofCents hroom maxCents_lt_capacity]
        exact hn
      have hmoved : Direction.credit.moved? 0 n = some n := by
        rw [Direction.moved?, Nat.zero_add, if_pos hn]
      simp only [move, availableAfter, hb, hsum, hmoved]
      rw [if_pos hlimit]
      simp only [bind, Except.bind, pure, Except.pure, atScale_ofCents, movedTo]
  | debit =>
      have hshort : ¬ ofCents n ≤ Money.zero.negate := by
        have hzero : Money.zero.negate.toRat = 0 := by
          simp [toRat, Decimal.signed, negate, Money.zero, Decimal.zero]
        rw [le_iff_toRat_le, hzero, toRat_ofCents hroom, not_le]
        have : (0 : ℚ) < n := by exact_mod_cast hpos
        positivity
      have hmoved : Direction.debit.moved? 0 n = none := if_neg (by omega)
      simp only [move, availableAfter, hb, hmoved]
      rw [if_neg hshort]
      rfl

/-- A balance within its bounds is moved by whole cents. -/
theorem Bounded.move_eq (h : b.Bounded) {n : Nat} (direction : Direction) (now : Timestamp)
    (hpos : 0 < n) (hn : n ≤ maxCents) :
    b.move direction (ofCents n) now = match direction.moved? b.available.mantissa n with
      | some after => .ok (b.movedTo after now)
      | none => .error (direction.refusal b.available (ofCents n)) := by
  rcases h.available_cases with hcents | ⟨hzero, hnone⟩
  · exact Balance.move_eq direction now hcents h.mantissa_le hn
  · rw [hnone]
    exact move_of_signed_zero direction now hzero hpos hn

/-! ## What a move leaves -/

/-- A balance is another one after a move that has left it with a number of cents: the same balance
at the next version, with two places and without a sign. -/
structure LeftWith (after b : Balance) (cents : Int) (now : Timestamp) : Prop where
  mantissa : (after.available.mantissa : Int) = cents
  scale : after.available.scale = 2
  negative : after.available.negative = false
  version : after.version.toInt = b.version.toInt + 1
  updatedAt : after.updatedAt = now
  id : after.id = b.id
  accountId : after.accountId = b.accountId
  currency : after.currency = b.currency

/-- A move of a balance by an amount is a move of integers, namely of the cents that are held and of
the cents that are paid. -/
structure MovesInCents (b : Balance) (direction : Direction) (amount : Decimal) (now : Timestamp)
    (held paid : Nat) : Prop where
  held_eq : b.available.toRat = held / 100
  paid_eq : amount.toRat = paid / 100
  /-- A move that is admitted is carried out. -/
  admitted : direction.Admits held paid → ∃ after, b.move direction amount now = .ok after ∧
    after.LeftWith b (held + direction.signed paid) now
  /-- A move that is not admitted is refused, with what is available and what was asked for. -/
  refused : ¬ direction.Admits held paid →
    b.move direction amount now = .error (direction.refusal b.available amount)
  /-- Moving the same amount back restores what was available, but for the sign of a zero. -/
  restored : ∀ after later, b.move direction amount now = .ok after →
    ∃ back, after.move direction.opposite amount later = .ok back ∧
      back.available.toRat = b.available.toRat ∧
      (b.available.negative = false → back.available = b.available)

theorem toInt_succ {v : Int64} (h : v < Int64.maxValue) : (v + 1).toInt = v.toInt + 1 := by
  have hlt := Int64.lt_iff_toInt_lt.mp h
  have hmin := v.minValue_le_toInt
  rw [Int64.toInt_add]
  change v.toInt < 2 ^ 63 - 1 at hlt
  change -2 ^ 63 ≤ v.toInt at hmin
  change (v.toInt + 1).bmod (2 ^ 64) = _
  apply Int.bmod_eq_of_le <;> omega

theorem movedTo_leftWith {after : Nat} (now : Timestamp) (hversion : b.version < Int64.maxValue)
    (hafter : after ≤ maxCents) : (b.movedTo after now).LeftWith b after now where
  mantissa := congrArg Nat.cast (mantissa_ofCents (lt_of_le_of_lt hafter maxCents_lt_capacity))
  scale := rfl
  negative := rfl
  version := toInt_succ hversion
  updatedAt := rfl
  id := rfl
  accountId := rfl
  currency := rfl

/-- What a move by a number of cents has left can be moved back. -/
theorem Bounded.move_back (hb : b.Bounded) {n : Nat} {direction : Direction} {now : Timestamp}
    {after : Balance} (hpos : 0 < n) (hn : n ≤ maxCents)
    (h : b.move direction (ofCents n) now = .ok after) (later : Timestamp) :
    ∃ back, after.move direction.opposite (ofCents n) later = .ok back ∧
      back.available.toRat = b.available.toRat ∧
      (b.available.negative = false → back.available = b.available) := by
  rw [hb.move_eq direction now hpos hn] at h
  cases hmoved : direction.moved? b.available.mantissa n with
  | none => simp [hmoved] at h
  | some left =>
      rw [hmoved] at h
      cases h
      -- What has been left has no sign, so the move back needs no second case for a zero.
      have hleft := (Direction.moved?_eq_some hmoved hb.mantissa_le).2
      have hback := Balance.move_eq (b := b.movedTo left now) direction.opposite later rfl hleft hn
      rw [Direction.moved?_opposite hb.mantissa_le hmoved] at hback
      refine ⟨_, hback, ?_, fun hnegative => ?_⟩
      · rw [hb.toRat_eq]
        exact toRat_ofCents b.available.mantissa_lt
      · rcases hb.available_cases with hcents | ⟨hzero, -⟩
        · exact hcents.symm
        · rw [hzero] at hnegative
          cases hnegative

/-- Moving a balance within its bounds by a valid amount is integer arithmetic on cents. -/
theorem Bounded.move_in_cents (hb : b.Bounded) (hversion : b.version < Int64.maxValue)
    {requested amount : Decimal} (hvalid : Money.validate requested = .ok amount)
    (direction : Direction) (now : Timestamp) :
    ∃ held paid, b.MovesInCents direction amount now held paid := by
  obtain ⟨n, -, hpos, hn, rfl⟩ := validate_ok hvalid
  have hmove := hb.move_eq direction now hpos hn
  refine ⟨b.available.mantissa, n, hb.toRat_eq, ?_, fun hadmits => ?_, fun hrefused => ?_, ?_⟩
  · exact toRat_ofCents (lt_of_le_of_lt hn maxCents_lt_capacity)
  · obtain ⟨left, hmoved, hcents⟩ := Direction.moved?_of_admits hadmits
    have hleft := (Direction.moved?_eq_some hmoved hb.mantissa_le).2
    refine ⟨b.movedTo left now, ?_, ?_⟩
    · rw [hmove, hmoved]
    · rw [← hcents]
      exact movedTo_leftWith now hversion hleft
  · rw [hmove, Direction.moved?_of_not_admits hrefused]
  · intro after later hafter
    exact hb.move_back hpos hn hafter later

end Balance

namespace Sample

/-- A balance less than a unit below the maximum, at the last version but one. -/
def brimming : Balance :=
  ⟨.nil, .nil, .eur, ofCents 9999999999999999900, 9223372036854775806, .start2025⟩

/-- The amount that fills it up, with three places. -/
def missing : Decimal :=
  ⟨false, 990, 3, by decide, by decide⟩

theorem bounded_brimming : brimming.Bounded := by
  have havailable : brimming.available.toRat = (9999999999999999900 : Nat) / 100 :=
    toRat_ofCents (by decide)
  refine ⟨rfl, ?_, ?_⟩
  · rw [havailable]
    positivity
  · rw [havailable]
    norm_num

theorem move_in_cents_brimming : brimming.version < Int64.maxValue ∧
    Money.validate missing = .ok (ofCents 99) ∧
      ∃ held paid, brimming.MovesInCents .credit (ofCents 99) .start2025 held paid := by
  have hversion : brimming.version < Int64.maxValue := by decide
  have hvalid : Money.validate missing = .ok (ofCents 99) := rfl
  exact ⟨hversion, hvalid,
    bounded_brimming.move_in_cents hversion hvalid .credit .start2025⟩

end Sample

end KeyedLedger
