import KeyedLedger.Gateway.Call
import KeyedLedger.Message.Topics
import KeyedLedger.Service.Request

/-! # Orders

An order is a request that changes the ledger. It goes out as a call under its key, and the payload
of its outcome comes back as the view of what was opened or applied.
-/

namespace KeyedLedger

/-- A request that changes the ledger. -/
inductive Order where
  | openAccount (request : AccountRequest)
  | applyTransaction (request : TransactionRequest)
deriving DecidableEq

/-- What the caller of an order is shown. -/
inductive Reply where
  | account (view : AccountView)
  | transaction (view : TransactionView)
deriving DecidableEq

/-- The reply as JSON. -/
def Reply.toJson : Reply → Json
  | account view => view.toJson
  | transaction view => view.toJson

namespace Order

/-- The type of the request. -/
def requestType : Order → RequestType
  | openAccount _ => .openAccount
  | applyTransaction _ => .applyTransaction

/-- The call of an order, unless the order is refused. -/
def toCall (order : Order) (topics : Topics) (key requestId : String) : Except ServiceError Call :=
  match order with
  | openAccount request => do
    let command ← obeyed request.toCommand
    return ⟨topics.accountCommands, key, requestId, RequestType.openAccount.code,
      OpenAccount.eventType, command.toJson⟩
  | applyTransaction request => do
    let command ← request.toCommand
    return ⟨topics.transactionCommands, key, requestId, RequestType.applyTransaction.code,
      ApplyTransaction.eventType, command.toJson⟩

/-- The reply in a payload. A payload of the other type of request does not fit. -/
def reply (type : RequestType) (payload : Json) : Except ServiceError Reply :=
  let found := match type with
    | .openAccount => (AccountView.shape.decoder.ofJson payload).map Reply.account
    | .applyTransaction => (TransactionView.shape.decoder.ofJson payload).map Reply.transaction
  match found with
  | .ok reply => .ok reply
  | .error fault => .error (.internal s!"unreadable outcome: {fault.message}")

end Order

end KeyedLedger
