import KeyedLedger.Text.Ascii
import KeyedLedger.Text.Blank

/-! # Currencies

The ledger keeps balances in four currencies. They have a fixed order, in which lists of
balances are kept.
-/

namespace KeyedLedger

/-- A currency of the ledger, in the order of the ledger. -/
inductive Currency where
  | eur
  | sek
  | gbp
  | usd
deriving DecidableEq, Repr

namespace Currency

/-- The currencies in order. -/
def all : List Currency :=
  [eur, sek, gbp, usd]

/-- The place of a currency in the order. -/
def rank : Currency → Nat
  | eur => 0
  | sek => 1
  | gbp => 2
  | usd => 3

/-- The three-letter code. -/
def code : Currency → String
  | eur => "EUR"
  | sek => "SEK"
  | gbp => "GBP"
  | usd => "USD"

instance : ToString Currency := ⟨code⟩

/-- The currency with a code, written exactly. -/
def ofCode? (s : String) : Option Currency :=
  all.find? fun c => c.code == s

/-- The currency with a code, whatever its case and the blanks around it. -/
def read? (raw : String) : Option Currency :=
  all.find? fun c => Text.sameIgnoringCase c.code (Text.trim raw)

theorem mem_all (c : Currency) : c ∈ all := by
  cases c <;> decide

theorem ofCode?_code (c : Currency) : ofCode? c.code = some c := by
  cases c <;> decide

end Currency

end KeyedLedger
