import KeyedLedger.Refusal

/-! # Countries

A country is named by two upper-case letters.
-/

namespace KeyedLedger

/-- The code of a country. -/
structure CountryCode where
  first : Char
  second : Char
  first_isUpper : first.isUpper
  second_isUpper : second.isUpper
deriving DecidableEq

namespace CountryCode

/-- The two letters. -/
def text (c : CountryCode) : String :=
  String.ofList [c.first, c.second]

instance : ToString CountryCode := ⟨text⟩

/-- The code in a text, less the blanks around it and whatever its case. -/
def read (raw : String) : Except Refusal CountryCode :=
  match (Text.trim raw).toList with
  | [a, b] =>
    if h : a.toUpper.isUpper ∧ b.toUpper.isUpper then .ok ⟨a.toUpper, b.toUpper, h.1, h.2⟩
    else .error (.invalidCountry raw)
  | _ => .error (.invalidCountry raw)

end CountryCode

end KeyedLedger
