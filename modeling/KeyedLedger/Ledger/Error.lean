import KeyedLedger.Event.Envelope
import KeyedLedger.Ledger.Basic
import KeyedLedger.Message.Outcome

/-! # Why the ledger refuses a command

A command is refused because of what it says, because of what is stored, or because the store
fails. The code that goes with a refusal tells these apart, and it is all that a caller learns
besides the wording.
-/

namespace KeyedLedger

/-- Why the ledger refuses a command. -/
inductive LedgerError where
  /-- A rule of the domain refuses it. -/
  | refused (refusal : Refusal)
  /-- Its key stands for a request of another type. -/
  | keyTaken (key requestType : String)
  /-- Its text cannot be read. -/
  | unreadable (error : EventError)
  | accountNotFound (account : Identifier)
  | currencyNotFound (account : Identifier) (currency : Currency)
  | concurrentModification
  | store (error : StoreError)
deriving DecidableEq

namespace LedgerError

/-- A failure of the store as a refusal. A lost race is one of its own. -/
def ofStore : StoreError → LedgerError
  | .versionConflict _ _ => concurrentModification
  | error => store error

/-- The code of a refusal. -/
def code : LedgerError → ErrorCode
  | refused (.insufficientFunds _ _) => .insufficientFunds
  | refused _ => .validationFailed
  | keyTaken _ _ => .validationFailed
  | unreadable _ => .validationFailed
  | accountNotFound _ => .accountNotFound
  | currencyNotFound _ _ => .currencyNotFound
  | concurrentModification => .concurrentModification
  | store _ => .internalError

/-- What is said of a key that stands for a request of another type. -/
def keyTakenMessage (key requestType : String) : String :=
  s!"Idempotency key '{key}' was already used for {requestType}"

/-- What is said of a refusal. -/
def message : LedgerError → String
  | refused (.insufficientFunds available requested) =>
    (Refusal.insufficientFunds available requested).message
  | refused refusal => s!"Validation failed: {refusal.message}"
  | keyTaken key requestType => s!"Validation failed: {keyTakenMessage key requestType}"
  | unreadable error => s!"Validation failed: {error.message}"
  | accountNotFound account => s!"Account {account} not found"
  | currencyNotFound account currency => s!"Account {account} has no {currency} balance"
  | concurrentModification => "Balance was modified concurrently, retry the request"
  | store error => s!"Ledger storage failed: {error.message}"

end LedgerError

end KeyedLedger
