import KeyedLedger.Text.Ascii
import KeyedLedger.Text.Blank
import KeyedLedger.Text.Digits
import KeyedLedger.Text.Hex

/-! # Printed characters

Digits, also hexadecimal ones, and upper-case letters are printed characters, and no printed
character is blank; so what is written with them is not changed by dropping blanks.
-/

namespace KeyedLedger.Text

theorem isVisible_iff (c : Char) : isVisible c = true ↔ 33 ≤ c.val.toNat ∧ c.val.toNat ≤ 126 := by
  simp [isVisible, UInt32.le_iff_toNat_le]

theorem isBlank_of_isVisible {c : Char} (h : isVisible c = true) : isBlank c = false := by
  rw [isVisible_iff] at h
  have hne : ∀ n : UInt32, n.toNat < 33 ∨ 126 < n.toNat → (c.val == n) = false := by
    intro n hn
    rw [beq_eq_false_iff_ne]
    rintro rfl
    omega
  have hle : ∀ m n : UInt32, n.toNat < 33 ∨ 126 < m.toNat →
      (decide (m ≤ c.val) && decide (c.val ≤ n)) = false := by
    intro m n hmn
    simp only [UInt32.le_iff_toNat_le, Bool.and_eq_false_iff, decide_eq_false_iff_not]
    omega
  simp [isBlank, hne, hle]

theorem isVisible_of_isDigit {c : Char} (h : c.isDigit = true) : isVisible c = true := by
  simp only [Char.isDigit, ge_iff_le, UInt32.le_iff_toNat_le, Bool.and_eq_true,
    decide_eq_true_eq] at h
  rw [isVisible_iff]
  exact ⟨Nat.le_trans (by decide) h.1, Nat.le_trans h.2 (by decide)⟩

theorem range_of_isUpper {c : Char} (h : c.isUpper = true) :
    'A'.val.toNat ≤ c.val.toNat ∧ c.val.toNat ≤ 'Z'.val.toNat :=
  of_decide_eq_true h

theorem isVisible_of_isUpper {c : Char} (h : c.isUpper = true) : isVisible c = true := by
  replace h := range_of_isUpper h
  rw [isVisible_iff]
  exact ⟨Nat.le_trans (by decide) h.1, Nat.le_trans h.2 (by decide)⟩

theorem isVisible_of_toLower {c : Char} (h : isVisible c.toLower = true) : isVisible c = true := by
  by_cases hupper : c.isUpper = true
  · exact isVisible_of_isUpper hupper
  · have hsame : c.toLower = c := dif_neg fun hrange => hupper (decide_eq_true hrange)
    rwa [hsame] at h

theorem isVisible_of_hexValue? {c : Char} {d : Fin 16} (h : hexValue? c = some d) :
    isVisible c = true := by
  rw [isVisible_iff]
  change 33 ≤ c.toNat ∧ c.toNat ≤ 126
  simp only [hexValue?] at h
  split at h
  next => omega
  next =>
    split at h
    next => omega
    next =>
      split at h
      next => omega
      next => cases h

theorem toUpper_of_isUpper {c : Char} (h : c.isUpper = true) : c.toUpper = c := by
  have hlower : ¬ (c.val ≥ 'a'.val ∧ c.val ≤ 'z'.val) := by
    rintro ⟨hlower, -⟩
    exact absurd (Nat.le_trans hlower (range_of_isUpper h).2) (by decide)
  exact dif_neg hlower

theorem ne_of_isDigit {c d : Char} (hc : c.isDigit = true) (hd : d.isDigit = false) : c ≠ d := by
  rintro rfl
  rw [hc] at hd
  cases hd

theorem dropBlanks_of_isVisible {c : Char} (h : isVisible c = true) (rest : List Char) :
    dropBlanks (c :: rest) = c :: rest := by
  rw [dropBlanks, List.dropWhile_cons_of_neg (by simp [isBlank_of_isVisible h])]

/-- A number is written with digits only, and with at least one. -/
theorem exists_cons_toDigits (n : Nat) :
    ∃ c cs, Nat.toDigits 10 n = c :: cs ∧ c.isDigit = true := by
  obtain ⟨c, cs, hcs⟩ := List.exists_cons_of_ne_nil (Nat.toDigits_ne_nil (b := 10) (n := n))
  exact ⟨c, cs, hcs, Nat.isDigit_of_mem_toDigits (by decide) (by decide)
    (hcs ▸ List.mem_cons_self)⟩

theorem toList_toString_ofNat (n : Nat) :
    (toString (Int.ofNat n)).toList = Nat.toDigits 10 n :=
  Nat.toList_repr

theorem toList_toString_negSucc (n : Nat) :
    (toString (Int.negSucc n)).toList = '-' :: Nat.toDigits 10 (n + 1) := by
  simp [toString, Int.repr]

theorem le_ofDigitChars (cs : List Char) (n : Nat) : n ≤ Nat.ofDigitChars 10 cs n := by
  rw [Nat.ofDigitChars_eq_ofDigitChars_zero]
  have := Nat.le_mul_of_pos_left n (Nat.pow_pos (n := cs.length) (show 0 < 10 by decide))
  omega

end KeyedLedger.Text
