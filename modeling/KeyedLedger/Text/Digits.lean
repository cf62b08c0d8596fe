import KeyedLedger.PowerOfTen

/-! # Whole numbers in decimal digits

Reading takes one or more of the digits `0` to `9` and nothing else. Writing uses the
fewest digits (`Nat.toDigits 10`) or a fixed least width filled with zeros on the left;
both read back as the number written (`natural?_toDigits`, `natural?_padded`).
-/

namespace KeyedLedger.Text

/-- The number that a non-empty run of decimal digits denotes. -/
def natural? (cs : List Char) : Option Nat :=
  if cs ≠ [] ∧ cs.all Char.isDigit then some (Nat.ofDigitChars 10 cs 0) else none

/-- As `natural?`, with one plus sign allowed in front. -/
def unsigned? : List Char → Option Nat
  | '+' :: cs => natural? cs
  | cs => natural? cs

/-- The digits of a number, filled with zeros on the left up to a least width. -/
def padded (width n : Nat) : List Char :=
  List.replicate (width - (Nat.toDigits 10 n).length) '0' ++ Nat.toDigits 10 n

theorem natural?_toDigits (n : Nat) : natural? (Nat.toDigits 10 n) = some n := by
  have h : (Nat.toDigits 10 n).all Char.isDigit := by
    rw [List.all_eq_true]
    exact fun c hc => Nat.isDigit_of_mem_toDigits (by decide) (by decide) hc
  simp [natural?, h]

theorem isDigit_of_mem_padded {width n : Nat} {c : Char} (h : c ∈ padded width n) :
    c.isDigit = true := by
  simp only [padded, List.mem_append, List.mem_replicate] at h
  rcases h with ⟨-, rfl⟩ | h
  · decide
  · exact Nat.isDigit_of_mem_toDigits (by decide) (by decide) h

theorem padded_ne_nil (width n : Nat) : padded width n ≠ [] := by
  simp [padded]

theorem ofDigitChars_padded (width n : Nat) : Nat.ofDigitChars 10 (padded width n) 0 = n := by
  simp [padded, Nat.ofDigitChars_append]

theorem natural?_padded (width n : Nat) : natural? (padded width n) = some n := by
  have h : (padded width n).all Char.isDigit := by
    rw [List.all_eq_true]
    exact fun c hc => isDigit_of_mem_padded hc
  simp [natural?, h, padded_ne_nil, ofDigitChars_padded]

/-- A number with at most `width` digits is written with exactly `width`. -/
theorem length_padded {width n : Nat} (hw : 0 < width) (h : n < tenTo width) :
    (padded width n).length = width := by
  have := (Nat.length_toDigits_le_iff (b := 10) (n := n) (by decide) hw).2 h
  simp only [padded, List.length_append, List.length_replicate]
  omega

end KeyedLedger.Text
