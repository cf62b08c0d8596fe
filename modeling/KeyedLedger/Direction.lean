import KeyedLedger.Text.Ascii
import KeyedLedger.Text.Blank

/-! # Directions and outcomes of a transaction -/

namespace KeyedLedger

/-- Whether money comes in or goes out. -/
inductive Direction where
  | credit
  | debit
deriving DecidableEq, Repr

namespace Direction

/-- The code of a direction. -/
def code : Direction → String
  | credit => "IN"
  | debit => "OUT"

instance : ToString Direction := ⟨code⟩

/-- The direction with a code, written exactly. -/
def ofCode? : String → Option Direction
  | "IN" => some credit
  | "OUT" => some debit
  | _ => none

/-- The direction with a code, whatever its case and the blanks around it. -/
def read? (raw : String) : Option Direction :=
  ofCode? (Text.upper (Text.trim raw))

theorem ofCode?_code (d : Direction) : ofCode? d.code = some d := by
  cases d <;> rfl

end Direction

/-- How a recorded transaction ended. -/
inductive Status where
  | completed
  | failed
deriving DecidableEq, Repr

namespace Status

/-- The code of a status. -/
def code : Status → String
  | completed => "COMPLETED"
  | failed => "FAILED"

instance : ToString Status := ⟨code⟩

/-- The status with a code, written exactly. -/
def ofCode? : String → Option Status
  | "COMPLETED" => some completed
  | "FAILED" => some failed
  | _ => none

/-- The status with a code, or what is said of a text that is none. -/
def read (raw : String) : Except String Status :=
  match ofCode? raw with
  | some s => .ok s
  | none => .error s!"unknown transaction status {raw}"

theorem ofCode?_code (s : Status) : ofCode? s.code = some s := by
  cases s <;> rfl

end Status

end KeyedLedger
