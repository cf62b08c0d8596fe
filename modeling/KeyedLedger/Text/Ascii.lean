/-! # Letters of the ASCII alphabet

Codes and header values compare and print by the ASCII letters alone; every other
character is left as it is.
-/

namespace KeyedLedger.Text

/-- The text with the letters `a` to `z` in upper case. -/
def upper (s : String) : String :=
  String.ofList (s.toList.map Char.toUpper)

/-- The text with the letters `A` to `Z` in lower case. -/
def lower (s : String) : String :=
  String.ofList (s.toList.map Char.toLower)

/-- Two texts are the same up to the case of their ASCII letters. -/
def sameIgnoringCase (s t : String) : Bool :=
  lower s == lower t

/-- A printed ASCII character: no blank, no control, no character past `~`. -/
def isVisible (c : Char) : Bool :=
  0x21 ≤ c.val && c.val ≤ 0x7E

theorem sameIgnoringCase_comm (s t : String) : sameIgnoringCase s t = sameIgnoringCase t s := by
  simp only [sameIgnoringCase]
  exact Bool.beq_comm

end KeyedLedger.Text
