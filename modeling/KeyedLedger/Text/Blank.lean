/-! # Blank characters and trimming

The blank characters are those with the Unicode property `White_Space`.
Trimming removes them from both ends of a text and nowhere else; a trimmed text
is unchanged by trimming it again (`trim_trim`).
-/

namespace KeyedLedger.Text

/-- The characters with the Unicode property `White_Space`. -/
def isBlank (c : Char) : Bool :=
  (9 ≤ c.val && c.val ≤ 13) || c.val == 0x20 || c.val == 0x85 || c.val == 0xA0 ||
    c.val == 0x1680 || (0x2000 ≤ c.val && c.val ≤ 0x200A) || c.val == 0x2028 ||
    c.val == 0x2029 || c.val == 0x202F || c.val == 0x205F || c.val == 0x3000

/-- The characters from the first that is not blank. -/
def dropBlanks (cs : List Char) : List Char :=
  cs.dropWhile isBlank

/-- The characters up to the last that is not blank. -/
def dropBlanksEnd (cs : List Char) : List Char :=
  (cs.reverse.dropWhile isBlank).reverse

/-- The text without the blank characters at its two ends. -/
def trim (s : String) : String :=
  String.ofList (dropBlanksEnd (dropBlanks s.toList))

theorem dropBlanks_dropBlanks (cs : List Char) : dropBlanks (dropBlanks cs) = dropBlanks cs := by
  induction cs with
  | nil => rfl
  | cons c r ih =>
    by_cases h : isBlank c = true
    · simpa [dropBlanks, h] using ih
    · simp [dropBlanks, h]

theorem dropBlanksEnd_dropBlanksEnd (cs : List Char) :
    dropBlanksEnd (dropBlanksEnd cs) = dropBlanksEnd cs := by
  have h := dropBlanks_dropBlanks cs.reverse
  simp only [dropBlanks] at h
  simp [dropBlanksEnd, h]

/-- A character that is not blank stops the trimming of the end. -/
theorem dropBlanksEnd_cons {c : Char} (hc : isBlank c = false) (r : List Char) :
    dropBlanksEnd (c :: r) = c :: dropBlanksEnd r := by
  simp only [dropBlanksEnd, List.reverse_cons, List.dropWhile_append]
  by_cases h : (r.reverse.dropWhile isBlank).isEmpty
  · rw [if_pos h, List.isEmpty_iff.1 h]
    simp [hc]
  · simp [h]

/-- What is left after trimming the start begins with no blank, also once its end is trimmed. -/
theorem dropBlanks_dropBlanksEnd_dropBlanks (cs : List Char) :
    dropBlanks (dropBlanksEnd (dropBlanks cs)) = dropBlanksEnd (dropBlanks cs) := by
  induction cs with
  | nil => rfl
  | cons c r ih =>
    by_cases h : isBlank c = true
    · simpa [dropBlanks, h] using ih
    · have hc : isBlank c = false := by simpa using h
      have : dropBlanks (c :: r) = c :: r := by simp [dropBlanks, hc]
      rw [this, dropBlanksEnd_cons hc]
      simp [dropBlanks, hc]

theorem trim_trim (s : String) : trim (trim s) = trim s := by
  simp [trim, dropBlanks_dropBlanksEnd_dropBlanks, dropBlanksEnd_dropBlanksEnd]

end KeyedLedger.Text
