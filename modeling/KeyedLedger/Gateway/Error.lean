import KeyedLedger.Event.Envelope
import KeyedLedger.Message.Outcome
import KeyedLedger.Refusal
import KeyedLedger.Time.Span

/-! # What a caller is told

A request fails on its way through the broker (`GatewayError`), and its caller is told so in the
terms of the service (`ServiceError`). A rejection keeps its code and its wording on the way, so a
caller can tell what to change from what to try again.
-/

namespace KeyedLedger

/-- Why a request gets no answer, or why an outcome is of no use. -/
inductive GatewayError where
  | unwritable (detail : String)
  | publish (error : BrokerError)
  | timeout (key : String) (after : Span)
  | rejected (rejection : Rejection)
  | aborted (reason : String)
  | malformed (detail : String)
deriving DecidableEq

/-- What is said of a failed request. -/
def GatewayError.message : GatewayError → String
  | unwritable detail => s!"Serialization failed: {detail}"
  | publish error => s!"Publish failed: {error.message}"
  | timeout key after => s!"No outcome for '{key}' within {after}"
  | rejected rejection => s!"Rejected with {rejection.code}: {rejection.reason}"
  | aborted reason => s!"Request aborted: {reason}"
  | malformed detail => s!"Malformed outcome: {detail}"

/-- What a caller of the service is told. -/
inductive ServiceError where
  | validation (message : String)
  | accountNotFound (message : String)
  | currencyNotFound (message : String)
  | insufficientFunds (message : String)
  | business (code : ErrorCode) (message : String)
  | timeout (message : String)
  | internal (message : String)
deriving DecidableEq

namespace ServiceError

/-- The wording. -/
def message : ServiceError → String
  | validation m => m
  | accountNotFound m => m
  | currencyNotFound m => m
  | insufficientFunds m => m
  | business _ m => m
  | timeout m => m
  | internal m => m

/-- The written code. -/
def code : ServiceError → String
  | validation _ => ErrorCode.validationFailed.code
  | accountNotFound _ => ErrorCode.accountNotFound.code
  | currencyNotFound _ => ErrorCode.currencyNotFound.code
  | insufficientFunds _ => ErrorCode.insufficientFunds.code
  | business c _ => c.code
  | timeout _ => "TIMEOUT"
  | internal _ => ErrorCode.internalError.code

/-- The same request may succeed later. -/
def isRetryable : ServiceError → Bool
  | timeout _ => true
  | internal _ => true
  | business .concurrentModification _ => true
  | _ => false

/-- The error for a rejection with this code and wording. -/
def ofCode (code : ErrorCode) (message : String) : ServiceError :=
  match code with
  | .validationFailed => validation message
  | .accountNotFound => accountNotFound message
  | .currencyNotFound => currencyNotFound message
  | .insufficientFunds => insufficientFunds message
  | .concurrentModification => business .concurrentModification message
  | .internalError => internal message

/-- The error for a request that failed on its way. -/
def ofGateway : GatewayError → ServiceError
  | .rejected rejection => ofCode rejection.code rejection.reason
  | .timeout _ _ => timeout "The ledger did not answer in time; retry with the same Idempotency-Key"
  | error => internal error.message

/-- The error for a request that a rule of the domain refuses. -/
def ofRefusal (r : Refusal) : ServiceError :=
  match r with
  | .insufficientFunds _ _ => insufficientFunds r.message
  | _ => validation r.message

end ServiceError

end KeyedLedger
