import KeyedLedger.Decimal.Text
import KeyedLedger.Proofs.Text.Characters

/-! # Decimals read back as they were written

Reading the text of a decimal gives the decimal itself, its scale included, unless it is a zero with
a sign: that sign is lost. So what has been read once, and is written and read again, reads as
itself from then on.
-/

namespace KeyedLedger

namespace Decimal

open KeyedLedger.Text

theorem readDigits_digit {point digit : Bool} {m s : Nat} {c : Char} {rest : List Char}
    (hc : c.isDigit = true) (hpoint : point = true → s < maxScale)
    (hroom : Nat.ofDigitChars 10 [c] m < capacity) :
    readDigits point digit m s (c :: rest) =
      readDigits point true (Nat.ofDigitChars 10 [c] m) (if point then s + 1 else s) rest := by
  have hlonger : m * 10 + (c.toNat - '0'.toNat) = Nat.ofDigitChars 10 [c] m := by
    rw [Nat.ofDigitChars_cons, Nat.ofDigitChars_nil, Nat.mul_comm]
  have hfull : ¬(point = true ∧ maxScale ≤ s) := fun h => absurd (hpoint h.1) (by omega)
  rw [readDigits, if_neg hfull, if_pos hc]
  simp only [hlonger, if_pos hroom]

theorem readDigits_whole {cs : List Char} {digit : Bool} {m s : Nat} (rest : List Char)
    (hcs : ∀ c ∈ cs, c.isDigit = true) (hroom : Nat.ofDigitChars 10 cs m < capacity) :
    readDigits false digit m s (cs ++ rest) =
      readDigits false (digit || !cs.isEmpty) (Nat.ofDigitChars 10 cs m) s rest := by
  induction cs generalizing digit m with
  | nil => simp
  | cons c cs ih =>
      rw [← List.singleton_append, Nat.ofDigitChars_append] at hroom ⊢
      have hfirst := Nat.lt_of_le_of_lt (le_ofDigitChars cs _) hroom
      rw [List.append_assoc, List.singleton_append,
        readDigits_digit (hcs c List.mem_cons_self) (by simp) hfirst,
        if_neg (by simp), ih (fun d hd => hcs d (List.mem_cons_of_mem _ hd)) hroom]
      simp

theorem readDigits_fraction {cs : List Char} {m s : Nat} (hcs : ∀ c ∈ cs, c.isDigit = true)
    (hroom : Nat.ofDigitChars 10 cs m < capacity) (hscale : s + cs.length ≤ maxScale) :
    readDigits true true m s cs = some (Nat.ofDigitChars 10 cs m, s + cs.length) := by
  induction cs generalizing m s with
  | nil => simp [readDigits]
  | cons c cs ih =>
      rw [← List.singleton_append, Nat.ofDigitChars_append] at hroom ⊢
      have hfirst := Nat.lt_of_le_of_lt (le_ofDigitChars cs _) hroom
      simp only [List.length_cons] at hscale
      rw [List.singleton_append,
        readDigits_digit (hcs c List.mem_cons_self) (fun _ => by omega) hfirst, if_pos rfl,
        ih (fun d hd => hcs d (List.mem_cons_of_mem _ hd)) hroom (by omega)]
      simp only [List.length_cons, Option.some.injEq, Prod.mk.injEq, true_and]
      omega

/-- The digits of a written decimal, at least one of them before the point, are its mantissa, and
those behind the point are as many as its scale. -/
theorem toChars_eq (d : Decimal) : ∃ first whole fraction,
    d.toChars = (if d.negative then ['-'] else []) ++
      ((first :: whole) ++ if d.scale = 0 then [] else '.' :: fraction) ∧
    (∀ c ∈ (first :: whole) ++ fraction, c.isDigit = true) ∧
    Nat.ofDigitChars 10 ((first :: whole) ++ fraction) 0 = d.mantissa ∧
    fraction.length = d.scale := by
  have hlength : d.scale + 1 ≤ (padded (d.scale + 1) d.mantissa).length := by
    simp only [padded, List.length_append, List.length_replicate]
    omega
  have hdigits : ∀ c ∈ padded (d.scale + 1) d.mantissa, c.isDigit = true :=
    fun c hc => isDigit_of_mem_padded hc
  have hvalue := ofDigitChars_padded (d.scale + 1) d.mantissa
  rw [toChars]
  generalize padded (d.scale + 1) d.mantissa = digits at hlength hdigits hvalue ⊢
  have hsplit := List.take_append_drop (digits.length - d.scale) digits
  -- The padding leaves a digit before the point.
  obtain ⟨first, whole, hwhole⟩ : ∃ first whole,
      digits.take (digits.length - d.scale) = first :: whole := by
    refine List.exists_cons_of_ne_nil (List.ne_nil_of_length_pos ?_)
    rw [List.length_take]
    omega
  refine ⟨first, whole, digits.drop (digits.length - d.scale), ?_, ?_, ?_, ?_⟩
  · simp only [hwhole, List.append_assoc]
  · rw [← hwhole, hsplit]
    exact hdigits
  · rw [← hwhole, hsplit]
    exact hvalue
  · rw [List.length_drop]
    omega

theorem readDigits_parts {cs fraction : List Char} {scale : Nat} (hne : cs ≠ [])
    (hdigits : ∀ c ∈ cs ++ fraction, c.isDigit = true)
    (hroom : Nat.ofDigitChars 10 (cs ++ fraction) 0 < capacity)
    (hlength : fraction.length = scale) (hscale : scale ≤ maxScale) :
    readDigits false false 0 0 (cs ++ if scale = 0 then [] else '.' :: fraction) =
      some (Nat.ofDigitChars 10 (cs ++ fraction) 0, scale) := by
  have hcs : ∀ c ∈ cs, c.isDigit = true := fun c hc => hdigits c (List.mem_append_left _ hc)
  rw [Nat.ofDigitChars_append] at hroom ⊢
  rw [readDigits_whole _ hcs (Nat.lt_of_le_of_lt (le_ofDigitChars fraction _) hroom),
    List.isEmpty_eq_false_iff.mpr hne]
  by_cases hzero : scale = 0
  · cases List.length_eq_zero_iff.mp (hlength.trans hzero)
    simp [hzero, readDigits]
  · have hdot : ('.' : Char).isDigit = false := by decide
    rw [if_neg hzero, readDigits]
    simp only [Bool.false_eq_true, false_and, if_false, hdot, not_false_eq_true, and_self, if_true,
      Bool.not_false, Bool.or_true]
    rw [readDigits_fraction (fun c hc => hdigits c (List.mem_append_right _ hc)) hroom
      (by rw [hlength, Nat.zero_add]; exact hscale), hlength, Nat.zero_add]

theorem readPlain_digit {c : Char} (hc : c.isDigit = true) (rest : List Char) :
    readPlain (c :: rest) = (readDigits false false 0 0 (c :: rest)).bind
      fun (mantissa, scale) => ofParts? false mantissa scale := by
  rw [readPlain]
  · rfl
  · exact fun r h => ne_of_isDigit hc (by decide) (List.cons.inj h).1
  · exact fun r h => ne_of_isDigit hc (by decide) (List.cons.inj h).1

/-- The decimal is no zero with a sign. -/
def Proper (d : Decimal) : Prop :=
  d.negative = true → d.mantissa ≠ 0

/-- The decimal without the sign of a zero. -/
def asRead (d : Decimal) : Decimal :=
  { d with negative := d.negative && d.mantissa != 0 }

theorem Proper.asRead_eq {d : Decimal} (h : d.Proper) : d.asRead = d := by
  have hnegative : (d.negative && d.mantissa != 0) = d.negative := by
    cases hd : d.negative with
    | false => rfl
    | true => simpa using h hd
  rw [asRead, hnegative]

theorem proper_asRead (d : Decimal) : d.asRead.Proper := by
  intro h
  have hmantissa := (Bool.and_eq_true_iff.mp h).2
  exact bne_iff_ne.mp hmantissa

theorem readPlain_toChars (d : Decimal) : readPlain d.toChars = some d.asRead := by
  obtain ⟨first, whole, fraction, hchars, hdigits, hvalue, hlength⟩ := toChars_eq d
  have hparts : ofParts? (d.negative && d.mantissa != 0) d.mantissa d.scale = some d.asRead := by
    rw [ofParts?, dif_pos ⟨d.mantissa_lt, d.scale_le⟩]
    rfl
  have hread := readDigits_parts (List.cons_ne_nil first whole) hdigits
    (by rw [hvalue]; exact d.mantissa_lt) hlength d.scale_le
  rw [hvalue] at hread
  rw [hchars]
  cases hnegative : d.negative with
  | true =>
      rw [if_pos rfl, List.singleton_append, readPlain]
      simp only [hread, Option.bind_some]
      rw [← hnegative]
      exact hparts
  | false =>
      have hfirst := hdigits first (List.mem_append_left _ List.mem_cons_self)
      rw [if_neg Bool.false_ne_true, List.nil_append, List.cons_append, readPlain_digit hfirst,
        ← List.cons_append, hread, Option.bind_some]
      rw [hnegative] at hparts
      exact hparts

/-- A decimal reads as itself, but for the sign of a zero. -/
theorem read?_toString (d : Decimal) : read? (toString d) = some d.asRead := by
  rw [read?, show (toString d).toList = d.toChars from String.toList_ofList, readPlain_toChars]
  rfl

end Decimal

end KeyedLedger
