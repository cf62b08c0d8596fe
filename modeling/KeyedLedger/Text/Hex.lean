/-! # Hexadecimal digits

A digit is written in lower case and read in either case.
-/

namespace KeyedLedger.Text

/-- The character of a hexadecimal digit. -/
def hexDigit (d : Fin 16) : Char :=
  if d < 10 then Char.ofNat (48 + d) else Char.ofNat (87 + d)

/-- The digit that a character stands for. -/
def hexValue? (c : Char) : Option (Fin 16) :=
  let n := c.toNat
  if h : 48 ≤ n ∧ n ≤ 57 then some ⟨n - 48, by omega⟩
  else if h : 97 ≤ n ∧ n ≤ 102 then some ⟨n - 87, by omega⟩
  else if h : 65 ≤ n ∧ n ≤ 70 then some ⟨n - 55, by omega⟩
  else none

theorem hexValue?_hexDigit (d : Fin 16) : hexValue? (hexDigit d) = some d := by
  revert d
  decide

end KeyedLedger.Text
