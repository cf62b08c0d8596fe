import KeyedLedger.Refusal

/-! # Customers

A customer is named by a text of 1 to 64 characters without blanks at its ends.
-/

namespace KeyedLedger

/-- The name of a customer. -/
structure CustomerId where
  text : String
  trimmed : Text.trim text = text
  length_pos : 0 < text.length
  length_le : text.length ≤ 64
deriving DecidableEq

namespace CustomerId

instance : ToString CustomerId := ⟨text⟩

/-- The name in a text, less the blanks around it. -/
def read (raw : String) : Except Refusal CustomerId :=
  if h : 0 < (Text.trim raw).length ∧ (Text.trim raw).length ≤ 64 then
    .ok ⟨Text.trim raw, Text.trim_trim raw, h.1, h.2⟩
  else .error (.invalidCustomer raw)

/-- A name reads as itself. -/
theorem read_text (id : CustomerId) : read id.text = .ok id := by
  have h : 0 < (Text.trim id.text).length ∧ (Text.trim id.text).length ≤ 64 := by
    rw [id.trimmed]
    exact ⟨id.length_pos, id.length_le⟩
  simp only [read, dif_pos h]
  congr 1
  cases id
  simp_all

end CustomerId

end KeyedLedger
