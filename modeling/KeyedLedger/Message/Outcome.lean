import KeyedLedger.Message.Command

/-! # Outcomes

A command ends in one of three outcomes: an account was opened, a transaction was applied, or
the command was rejected with a code and a reason.
-/

namespace KeyedLedger

/-- The codes under which a command is rejected. -/
inductive ErrorCode where
  | validationFailed
  | accountNotFound
  | currencyNotFound
  | insufficientFunds
  | concurrentModification
  | internalError
deriving DecidableEq, Repr

namespace ErrorCode

/-- The codes. -/
def all : List ErrorCode :=
  [validationFailed, accountNotFound, currencyNotFound, insufficientFunds, concurrentModification,
    internalError]

/-- The written code. -/
def code : ErrorCode → String
  | validationFailed => "VALIDATION_FAILED"
  | accountNotFound => "ACCOUNT_NOT_FOUND"
  | currencyNotFound => "CURRENCY_NOT_FOUND"
  | insufficientFunds => "INSUFFICIENT_FUNDS"
  | concurrentModification => "CONCURRENT_MODIFICATION"
  | internalError => "INTERNAL_ERROR"

instance : ToString ErrorCode := ⟨code⟩

/-- The code written exactly so. -/
def ofCode? (s : String) : Option ErrorCode :=
  all.find? fun c => c.code == s

theorem ofCode?_code (c : ErrorCode) : ofCode? c.code = some c := by
  cases c <;> decide

end ErrorCode

/-- The news that a command was rejected. -/
structure Rejection where
  code : ErrorCode
  reason : String
  requestId : Option String
  timestamp : Timestamp
deriving DecidableEq

namespace Rejection

/-- The type of the event that carries the news. -/
def eventType : String := "CommandRejected.v1"

/-- The news as JSON. -/
def toJson (r : Rejection) : Json :=
  .object [
    ("errorCode", .string r.code.code),
    ("errorMessage", .string r.reason),
    ("requestId", .ofOption (r.requestId.map .string)),
    ("timestamp", .string (toString r.timestamp))]

/-- The fields of the news. -/
def shape : Shape Rejection :=
  mk <$> .field "errorCode" (.name ErrorCode.ofCode?)
    <*> .field "errorMessage" .string
    <*> .optional "requestId" .string
    <*> .field "timestamp" .timestamp

end Rejection

/-- The type of the event that carries an opened account. -/
def Account.eventType : String := "AccountCreated.v1"

/-- An opened account as the body of an event. -/
def Account.toOutcome (a : Account) : Json :=
  .object [("account", a.toJson)]

/-- The one field of that body. -/
def Account.outcomeShape : Shape Account :=
  .field "account" shape.decoder

/-- The type of the event that carries an applied transaction. -/
def Applied.eventType : String := "TransactionCompleted.v1"

end KeyedLedger
