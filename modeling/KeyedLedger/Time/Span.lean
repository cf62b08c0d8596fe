import KeyedLedger.Text.Digits

/-! # Spans of time

A span is a whole number of milliseconds. It is written in its largest fitting unit: seconds
with the fewest digits that are exact, else milliseconds, and `0ns` for the empty span.
-/

namespace KeyedLedger

/-- A whole number of milliseconds. -/
structure Span where
  millis : Nat
deriving DecidableEq, Inhabited

namespace Span

/-- The thousandths of a second behind the point, without trailing zeros. -/
def fractionChars (millis : Nat) : List Char :=
  if millis = 0 then []
  else if millis % 100 = 0 then '.' :: Text.padded 1 (millis / 100)
  else if millis % 10 = 0 then '.' :: Text.padded 2 (millis / 10)
  else '.' :: Text.padded 3 millis

/-- The written span. -/
protected def toString (s : Span) : String :=
  if s.millis = 0 then "0ns"
  else if s.millis < 1000 then s!"{s.millis}ms"
  else s!"{s.millis / 1000}{String.ofList (fractionChars (s.millis % 1000))}s"

instance : ToString Span := ⟨Span.toString⟩

/-- A whole number of seconds. -/
def ofSeconds (seconds : Nat) : Span :=
  ⟨seconds * 1000⟩

end Span

end KeyedLedger
