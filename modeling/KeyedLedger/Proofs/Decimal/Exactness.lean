import KeyedLedger.Proofs.Decimal.Reading
import KeyedLedger.Proofs.Decimal.Value
import KeyedLedger.Proofs.Json.Numeral

/-! # Numerals that a decimal holds exactly

The digits of a numeral without an exponent are taken while they have room, and the first digit
without room decides the rounding. If some decimal holds the number exactly, all that is left once
the room is used up are zeros, so nothing is rounded: the numeral is read as its number
(`Numeral.read_exact`).
-/

namespace KeyedLedger

namespace Numeral

/-- The digits behind the point. -/
def places (n : Numeral) : List Char :=
  n.fraction.elim [] Digits.chars

/-- How far the exponent moves the point to the right. -/
def power (n : Numeral) : ℤ :=
  n.exponent.elim 0 fun e =>
    let size := Nat.ofDigitChars 10 e.digits.chars 0
    if e.sign = ['-'] then -size else size

/-- The number of units of the last place, without its sign. -/
def units (n : Numeral) : Nat :=
  Nat.ofDigitChars 10 (n.whole.chars ++ n.places) 0

/-- The number that the numeral stands for. -/
def toRat (n : Numeral) : ℚ :=
  (if n.negative then -1 else 1) * (n.units / tenTo n.places.length) * 10 ^ n.power

end Numeral

namespace Decimal

open Text

/-! ## Digits -/

theorem ofDigitChars_eq (cs : List Char) (m : Nat) :
    Nat.ofDigitChars 10 cs m = m * tenTo cs.length + Nat.ofDigitChars 10 cs 0 := by
  rw [Nat.ofDigitChars_eq_ofDigitChars_zero, Nat.mul_comm]
  rfl

theorem ofDigitChars_lt {cs : List Char} (hcs : ∀ c ∈ cs, c.isDigit = true) :
    Nat.ofDigitChars 10 cs 0 < tenTo cs.length := by
  induction cs with
  | nil => exact Nat.one_pos
  | cons c cs ih =>
      have hrest := ih fun d hd => hcs d (List.mem_cons_of_mem _ hd)
      have hc : c.toNat - '0'.toNat ≤ 9 := by
        have hdigit := hcs c List.mem_cons_self
        simp only [Char.isDigit, ge_iff_le, UInt32.le_iff_toNat_le, Bool.and_eq_true,
          decide_eq_true_eq] at hdigit
        exact Nat.sub_le_of_le_add hdigit.2
      rw [Nat.ofDigitChars_cons, ofDigitChars_eq, List.length_cons, tenTo_succ]
      nlinarith

theorem eq_zero_of_isDigit {c : Char} (hc : c.isDigit = true) (hzero : c.toNat - '0'.toNat = 0) :
    c = '0' := by
  simp only [Char.isDigit, ge_iff_le, UInt32.le_iff_toNat_le, Bool.and_eq_true,
    decide_eq_true_eq] at hc
  have hle : c.toNat ≤ 48 := Nat.le_of_sub_eq_zero hzero
  exact Char.ext (UInt32.toNat_inj.mp (Nat.le_antisymm hle hc.1))

/-! ## Rounding nothing -/

/-- Digits behind the last place of a number are zeros. -/
theorem ofDigitChars_eq_zero {cs : List Char} (hcs : ∀ c ∈ cs, c.isDigit = true)
    {m s mantissa scale : Nat} (hscale : scale ≤ s)
    (hexact : Nat.ofDigitChars 10 cs m * tenTo scale = mantissa * tenTo (s + cs.length)) :
    Nat.ofDigitChars 10 cs 0 = 0 := by
  have hsplit : tenTo (s + cs.length) = tenTo (s - scale) * tenTo cs.length * tenTo scale := by
    rw [← tenTo_add, ← tenTo_add]
    congr 1
    omega
  rw [hsplit, ← Nat.mul_assoc, ofDigitChars_eq] at hexact
  have hvalue := Nat.eq_of_mul_eq_mul_right (tenTo_pos scale) hexact
  have hdvd : tenTo cs.length ∣ Nat.ofDigitChars 10 cs 0 := by
    refine (Nat.dvd_add_right (Nat.dvd_mul_left _ m)).mp ?_
    rw [hvalue, ← Nat.mul_assoc]
    exact Nat.dvd_mul_left _ _
  exact Nat.eq_zero_of_dvd_of_lt hdvd (ofDigitChars_lt hcs)

/-- The next digit rounds nothing if it stands behind the last place of the number. -/
theorem roundOn_exact {c : Char} {cs : List Char} (hcs : ∀ d ∈ c :: cs, d.isDigit = true)
    {m s mantissa scale : Nat} (hscale : scale ≤ s)
    (hexact : Nat.ofDigitChars 10 (c :: cs) m * tenTo scale =
      mantissa * tenTo (s + (c :: cs).length)) :
    roundOn m s c = some (m, s) ∧
      Nat.ofDigitChars 10 (c :: cs) m * tenTo s = m * tenTo (s + (c :: cs).length) := by
  have hzero := ofDigitChars_eq_zero hcs hscale hexact
  have hfirst : c.toNat - '0'.toNat = 0 := by
    rw [Nat.ofDigitChars_cons, Nat.mul_zero, Nat.zero_add] at hzero
    exact Nat.le_zero.mp (hzero ▸ le_ofDigitChars cs _)
  refine ⟨?_, ?_⟩
  · rw [eq_zero_of_isDigit (hcs c List.mem_cons_self) hfirst]
    rfl
  · rw [ofDigitChars_eq, hzero, tenTo_add, Nat.add_zero, Nat.mul_assoc,
      Nat.mul_comm (tenTo (c :: cs).length)]

/-- Digits that have no room any more stand behind the last place of a number that has. -/
theorem scale_le_of_full {cs : List Char} {m s mantissa scale : Nat}
    (hmantissa : mantissa < capacity) (hfull : capacity ≤ m)
    (hexact : Nat.ofDigitChars 10 cs m * tenTo scale = mantissa * tenTo (s + 1 + cs.length)) :
    scale ≤ s := by
  by_contra hlt
  have hle : m * tenTo cs.length ≤ Nat.ofDigitChars 10 cs m := by
    rw [ofDigitChars_eq]
    exact Nat.le_add_right _ _
  have hmono : tenTo (s + 1 + cs.length) ≤ tenTo cs.length * tenTo scale := by
    rw [← tenTo_add]
    exact Nat.pow_le_pow_right (by decide) (by omega)
  have hbound : m * (tenTo cs.length * tenTo scale) ≤ mantissa * (tenTo cs.length * tenTo scale) :=
    calc m * (tenTo cs.length * tenTo scale)
        = m * tenTo cs.length * tenTo scale := (Nat.mul_assoc ..).symm
      _ ≤ Nat.ofDigitChars 10 cs m * tenTo scale := Nat.mul_le_mul_right _ hle
      _ = mantissa * tenTo (s + 1 + cs.length) := hexact
      _ ≤ mantissa * (tenTo cs.length * tenTo scale) := Nat.mul_le_mul_left _ hmono
  have hpos := Nat.mul_pos (tenTo_pos cs.length) (tenTo_pos scale)
  have := Nat.le_of_mul_le_mul_right hbound hpos
  omega

/-- The digits behind the point of a number with room are read as they stand, as far as they are no
zeros behind its last place. -/
theorem readDigits_exact {cs : List Char} (hcs : ∀ c ∈ cs, c.isDigit = true)
    {m s mantissa scale : Nat} (hm : m < capacity) (hs : s ≤ maxScale)
    (hmantissa : mantissa < capacity) (hscale : scale ≤ maxScale)
    (hexact : Nat.ofDigitChars 10 cs m * tenTo scale = mantissa * tenTo (s + cs.length)) :
    ∃ m' s', readDigits true true m s cs = some (m', s') ∧ m' < capacity ∧ s' ≤ maxScale ∧
      Nat.ofDigitChars 10 cs m * tenTo s' = m' * tenTo (s + cs.length) := by
  induction cs generalizing m s with
  | nil => exact ⟨m, s, rfl, hm, hs, rfl⟩
  | cons c cs ih =>
      have hc := hcs c List.mem_cons_self
      have hrest : ∀ d ∈ cs, d.isDigit = true := fun d hd => hcs d (List.mem_cons_of_mem _ hd)
      by_cases hroom : s < maxScale
      · have hlength : s + (c :: cs).length = s + 1 + cs.length := by
          rw [List.length_cons]
          omega
        have hstep : Nat.ofDigitChars 10 (c :: cs) m =
            Nat.ofDigitChars 10 cs (Nat.ofDigitChars 10 [c] m) :=
          Nat.ofDigitChars_append (l := [c]) m
        by_cases hdigit : Nat.ofDigitChars 10 [c] m < capacity
        · rw [readDigits_digit hc (fun _ => hroom) hdigit, hstep, hlength]
          exact ih hrest hdigit hroom (by rwa [hstep, hlength] at hexact)
        · rw [hstep, hlength] at hexact
          have hbehind := scale_le_of_full hmantissa (Nat.le_of_not_lt hdigit) hexact
          rw [← hstep, ← hlength] at hexact
          obtain ⟨hround, hsame⟩ := roundOn_exact hcs hbehind hexact
          refine ⟨m, s, ?_, hm, hs, hsame⟩
          have hlonger : m * 10 + (c.toNat - '0'.toNat) = Nat.ofDigitChars 10 [c] m := by
            rw [Nat.ofDigitChars_cons, Nat.ofDigitChars_nil, Nat.mul_comm]
          rw [readDigits, if_neg (by omega), if_pos hc]
          simp only [hlonger, if_neg hdigit, if_true, hround]
      · obtain ⟨hround, hsame⟩ := roundOn_exact hcs (by omega) hexact
        refine ⟨m, s, ?_, hm, hs, hsame⟩
        rw [readDigits, if_pos ⟨rfl, Nat.le_of_not_lt hroom⟩, hround]

/-! ## The numeral -/

/-- The digits before the point of a number with room have room. -/
theorem whole_lt {n : Numeral} {mantissa scale : Nat} (hmantissa : mantissa < capacity)
    (hexact : n.units * tenTo scale = mantissa * tenTo n.places.length) :
    Nat.ofDigitChars 10 n.whole.chars 0 < capacity := by
  have hunits : Nat.ofDigitChars 10 n.whole.chars 0 * tenTo n.places.length ≤ n.units := by
    rw [Numeral.units, Nat.ofDigitChars_append, ofDigitChars_eq n.places]
    exact Nat.le_add_right _ _
  have hbound := hunits.trans (Nat.le_mul_of_pos_right n.units (tenTo_pos scale))
  rw [hexact] at hbound
  exact Nat.lt_of_le_of_lt (Nat.le_of_mul_le_mul_right hbound (tenTo_pos _)) hmantissa

/-- The digits of a numeral without an exponent are read as its number, if that has room. -/
theorem readDigits_numeral {n : Numeral} (hexponent : n.exponent = none) {mantissa scale : Nat}
    (hmantissa : mantissa < capacity) (hscale : scale ≤ maxScale)
    (hexact : n.units * tenTo scale = mantissa * tenTo n.places.length) :
    ∃ m s, readDigits false false 0 0 (n.whole.chars ++ (n.fractionChars ++ n.exponentChars)) =
        some (m, s) ∧ m < capacity ∧ s ≤ maxScale ∧
      n.units * tenTo s = m * tenTo n.places.length := by
  have hwhole := whole_lt hmantissa hexact
  rw [readDigits_whole _ n.whole.isDigit hwhole, List.isEmpty_eq_false_iff.mpr n.whole.ne_nil,
    Numeral.fractionChars, Numeral.exponentChars, hexponent]
  rw [Numeral.units, Numeral.places, Nat.ofDigitChars_append] at hexact ⊢
  cases hfraction : n.fraction with
  | none => exact ⟨_, 0, rfl, hwhole, Nat.zero_le _, rfl⟩
  | some digits =>
      rw [hfraction] at hexact
      simp only [Option.elim_some, Option.elim_none, List.append_nil] at hexact ⊢
      have hdot : ('.' : Char).isDigit = false := by decide
      rw [readDigits]
      simp only [Bool.false_eq_true, false_and, if_false, hdot, not_false_eq_true, and_self,
        if_true, Bool.not_false, Bool.or_true]
      rw [← Nat.zero_add digits.chars.length] at hexact ⊢
      exact readDigits_exact digits.isDigit hwhole (Nat.zero_le _) hmantissa hscale hexact

theorem readPlain_numeral (n : Numeral) : readPlain n.chars =
    (readDigits false false 0 0 (n.whole.chars ++ (n.fractionChars ++ n.exponentChars))).bind
      fun (mantissa, scale) => ofParts? (n.negative && mantissa != 0) mantissa scale := by
  rw [Numeral.chars, Numeral.signChars]
  cases n.negative with
  | true => rfl
  | false =>
      obtain ⟨c, cs, hcs, hc⟩ := n.whole.exists_cons
      rw [if_neg Bool.false_ne_true, List.nil_append, hcs, List.cons_append, readPlain_digit hc]
      rfl

theorem abs_toRat (d : Decimal) : |d.toRat| = d.mantissa / tenTo d.scale := by
  have hsigned : |(d.signed : ℚ)| = d.mantissa := by
    rw [signed]
    split
    · simp
    · simp
  rw [toRat, abs_div, hsigned, abs_of_pos (tenTo_cast_pos _)]

/-- The number of a decimal with a given sign, mantissa and scale. -/
theorem toRat_eq (d : Decimal) :
    d.toRat = (if d.negative then -1 else 1) * (d.mantissa / tenTo d.scale) := by
  rw [toRat, signed]
  split
  · push_cast
    ring
  · push_cast
    ring

end Decimal

open Decimal

theorem Numeral.abs_toRat {n : Numeral} (hexponent : n.exponent = none) :
    |n.toRat| = n.units / tenTo n.places.length := by
  have hpos := tenTo_cast_pos n.places.length
  have hsign : |(if n.negative then -1 else 1 : ℚ)| = 1 := by
    split <;> simp
  rw [Numeral.toRat, Numeral.power, hexponent, Option.elim_none, zpow_zero, mul_one, abs_mul,
    hsign, one_mul, abs_of_nonneg (by positivity)]

/-- A numeral without an exponent is read as its number, if any decimal holds it exactly. -/
theorem Numeral.read_exact {n : Numeral} (hexponent : n.exponent = none)
    (hfits : ∃ e : Decimal, e.toRat = n.toRat) :
    ∃ d, Decimal.read? n.text = some d ∧ d.toRat = n.toRat := by
  obtain ⟨e, he⟩ := hfits
  have hexact : n.units * tenTo e.scale = e.mantissa * tenTo n.places.length := by
    have habs := congrArg abs he
    rw [Decimal.abs_toRat, Numeral.abs_toRat hexponent,
      div_eq_div_iff (tenTo_cast_pos _).ne' (tenTo_cast_pos _).ne'] at habs
    exact_mod_cast habs.symm
  obtain ⟨m, s, hread, hm, hs, hvalue⟩ :=
    readDigits_numeral hexponent e.mantissa_lt e.scale_le hexact
  have hparts : readPlain n.chars = some ⟨n.negative && m != 0, m, s, hm, hs⟩ := by
    rw [readPlain_numeral, hread]
    exact dif_pos ⟨hm, hs⟩
  refine ⟨⟨n.negative && m != 0, m, s, hm, hs⟩, ?_, ?_⟩
  · rw [read?, text, String.toList_ofList, hparts, Option.some_or]
  · have hquotient : (m : ℚ) / tenTo s = n.units / tenTo n.places.length := by
      rw [div_eq_div_iff (tenTo_cast_pos _).ne' (tenTo_cast_pos _).ne']
      exact_mod_cast hvalue.symm
    rw [toRat_eq, Numeral.toRat, Numeral.power, hexponent, Option.elim_none, zpow_zero, mul_one,
      ← hquotient]
    by_cases hzero : m = 0
    · simp [hzero]
    · simp [hzero]

end KeyedLedger
