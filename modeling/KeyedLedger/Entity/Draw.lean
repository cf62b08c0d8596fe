import KeyedLedger.Currency
import KeyedLedger.Identifier

/-! # Fresh identifiers

A command that changes the ledger needs new identifiers. They are drawn from outside, one
set per attempt, and an attempt uses of its set what it needs. A supply hands out identifiers one
after the other, each place of its sequence once.
-/

namespace KeyedLedger

/-- The identifiers drawn for one attempt at a command. -/
structure Draw where
  account : Identifier
  balance : Currency → Identifier
  transaction : Identifier

instance : Inhabited Draw := ⟨⟨.nil, fun _ => .nil, .nil⟩⟩

/-- A sequence of identifiers, and how many of them have been handed out. -/
structure Supply where
  ids : Nat → Identifier
  used : Nat := 0

namespace Supply

instance : Inhabited Supply := ⟨⟨fun _ => .nil, 0⟩⟩

/-- The next identifier. -/
def take (s : Supply) : Identifier × Supply :=
  (s.ids s.used, { s with used := s.used + 1 })

/-- The next identifiers, enough for an attempt. -/
def draw (s : Supply) : Draw × Supply :=
  (⟨s.ids s.used, fun c => s.ids (s.used + 1 + c.rank), s.ids (s.used + 1 + Currency.all.length)⟩,
    { s with used := s.used + 2 + Currency.all.length })

end Supply

end KeyedLedger
