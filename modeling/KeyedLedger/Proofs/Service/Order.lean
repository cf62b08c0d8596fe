import KeyedLedger.Proofs.Ledger.Calm
import KeyedLedger.Proofs.Message.Reading
import KeyedLedger.Service.Order

/-! # Orders as commands of the ledger

An order that is not refused is a command: its call carries the command as JSON, and the command
passes the checks that the ledger makes first. What the ledger answers comes back as a payload. The
caller of an order of the same type reads it as the view of that answer, and the caller of an order
of the other type cannot read it.
-/

namespace KeyedLedger

theorem obeyed_ok {α : Type} {rule : Except Refusal α} {a : α} (h : obeyed rule = .ok a) :
    rule = .ok a := by
  cases rule with
  | ok b =>
      cases h
      rfl
  | error r => cases h

/-! ## Commands -/

namespace Command

/-- The type of the event that carries a command. -/
def eventType : Command → String
  | openAccount _ => OpenAccount.eventType
  | applyTransaction _ => ApplyTransaction.eventType

/-- A command as JSON. -/
def toJson : Command → Json
  | openAccount c => c.toJson
  | applyTransaction c => c.toJson

/-- The event that carries a command. -/
def event (c : Command) (m : Metadata) : Event :=
  .ofJson c.eventType c.toJson m

/-- The topic of a command. -/
def topic (t : Topics) : Command → String
  | openAccount _ => t.accountCommands
  | applyTransaction _ => t.transactionCommands

/-- The call that carries a command under its key. -/
def call (c : Command) (t : Topics) (key requestId : String) : Call :=
  ⟨c.topic t, key, requestId, c.type.code, c.eventType, c.toJson⟩

@[simp] theorem key_call (c : Command) (t : Topics) (key requestId : String) :
    (c.call t key requestId).key = key :=
  rfl

/-- A command can be written without loss. -/
def Legible : Command → Prop
  | openAccount _ => True
  | applyTransaction c => c.amount.negative = true → c.amount.mantissa ≠ 0

end Command

namespace Order

/-- The command of an order, unless the order is refused. -/
def command : Order → Except ServiceError Command
  | openAccount request => (obeyed request.toCommand).map .openAccount
  | applyTransaction request => request.toCommand.map .applyTransaction

/-- The call of an order carries its command. -/
theorem toCall_eq (order : Order) (t : Topics) (key requestId : String) :
    order.toCall t key requestId = order.command.map fun c => c.call t key requestId := by
  cases order with
  | openAccount request =>
      simp only [toCall, command]
      cases obeyed request.toCommand <;> rfl
  | applyTransaction request =>
      simp only [toCall, command]
      cases request.toCommand <;> rfl

theorem type_of_command {order : Order} {c : Command} (h : order.command = .ok c) :
    c.type = order.requestType := by
  cases order with
  | openAccount request =>
      obtain ⟨command, -, rfl⟩ := map_ok h
      rfl
  | applyTransaction request =>
      obtain ⟨command, -, rfl⟩ := map_ok h
      rfl

end Order

/-- A command of a request has cents for its amount, and a description that is not too long. -/
theorem TransactionRequest.toCommand_ok {r : TransactionRequest} {c : ApplyTransaction}
    (h : r.toCommand = .ok c) :
    checkDescription c.description = .ok () ∧
      ∃ n, 0 < n ∧ n ≤ Money.maxCents ∧ c.amount = Money.ofCents n := by
  obtain ⟨_, hdescribed, h⟩ := bind_ok h
  obtain ⟨account, -, h⟩ := bind_ok h
  obtain ⟨amount, hamount, h⟩ := bind_ok h
  obtain ⟨currency, -, h⟩ := bind_ok h
  obtain ⟨direction, -, h⟩ := bind_ok h
  cases h
  obtain ⟨n, -, hpos, hle, rfl⟩ := Money.validate_ok (obeyed_ok hamount)
  exact ⟨obeyed_ok hdescribed, n, hpos, hle, rfl⟩

theorem Order.valid_of_command {order : Order} {c : Command} (h : order.command = .ok c) :
    c.Valid ∧ c.Legible := by
  cases order with
  | openAccount request =>
      obtain ⟨command, -, rfl⟩ := map_ok h
      exact ⟨trivial, trivial⟩
  | applyTransaction request =>
      obtain ⟨command, hcommand, rfl⟩ := map_ok h
      obtain ⟨hdescribed, n, hpos, hle, hamount⟩ := TransactionRequest.toCommand_ok hcommand
      refine ⟨⟨⟨_, by rw [hamount, Money.validate_ofCents hpos hle]⟩, hdescribed⟩, ?_⟩
      rw [Command.Legible, hamount]
      exact unsigned_ofCents n

/-! ## Replies -/

namespace Result

/-- What a caller is shown of a value. -/
def reply : Result → Reply
  | opened a => .account (.ofAccount a)
  | applied a => .transaction (.ofApplied a)

/-- What a caller is shown of a value, as it is kept. -/
def payload (v : Result) : Json :=
  v.reply.toJson.sorted

/-- The times of a value can be written. -/
def Timed : Result → Prop
  | opened a => a.Timed
  | applied a => a.transaction.Timed ∧ a.balance.Timed

/-- The value with its amounts as they are read. -/
def asRead : Result → Result
  | opened a => opened a.asRead
  | applied a => applied a.asRead

theorem Timed.reply_payload {v : Result} (h : v.Timed) :
    Order.reply v.type v.payload = .ok v.asRead.reply := by
  cases v with
  | opened a =>
      have hread : AccountView.shape.decoder.ofJson (Result.opened a).payload =
          .ok (.ofAccount a.asRead) := (AccountView.readsAsRead h).sorted
      simp only [Order.reply, Result.type, hread]
      rfl
  | applied a =>
      have hread : TransactionView.shape.decoder.ofJson (Result.applied a).payload =
          .ok (.ofApplied a.asRead) := (TransactionView.readsAsRead h.1).sorted
      simp only [Order.reply, Result.type, hread]
      rfl

namespace Legible

variable {v : Result}

theorem timed (h : v.Legible) : v.Timed := by
  cases v with
  | opened a =>
      exact ⟨fun b hb => (h.balances b hb).updatedAt, h.createdAt, h.updatedAt⟩
  | applied a => exact ⟨⟨h.1.createdAt, h.1.updatedAt⟩, h.2.updatedAt⟩

theorem asRead_eq (h : v.Legible) : v.asRead = v := by
  cases v with
  | opened a => exact congrArg Result.opened (Account.Legible.asRead_eq h)
  | applied a => rw [asRead, Applied.asRead, h.1.asRead_eq, h.2.asRead_eq]

theorem reply_payload (h : v.Legible) : Order.reply v.type v.payload = .ok v.reply := by
  rw [h.timed.reply_payload, h.asRead_eq]

end Legible

end Result

/-- What a caller is shown of a value lacks a field of what the other type of order shows. -/
theorem Result.reply_payload_other {v : Result} {type : RequestType} (h : v.type ≠ type) :
    ∃ fault : Fault,
      Order.reply type v.payload = .error (.internal s!"unreadable outcome: {fault.message}") := by
  cases v with
  | opened a =>
      cases type with
      | openAccount => exact absurd rfl h
      | applyTransaction =>
      have hread : ∃ fault, TransactionView.shape.decoder.ofJson (Result.opened a).payload =
          .error fault :=
        TransactionView.requires_id.decoder (by simp) (by simp) Json.arranges_sorted
      obtain ⟨fault, hread⟩ := hread
      refine ⟨fault, ?_⟩
      simp only [Order.reply, hread]
      rfl
  | applied a =>
      cases type with
      | applyTransaction => exact absurd rfl h
      | openAccount =>
      have hread : ∃ fault, AccountView.shape.decoder.ofJson (Result.applied a).payload =
          .error fault :=
        AccountView.requires_customer.decoder (by simp [TransactionView.ofApplied])
          (by simp [TransactionView.ofApplied]) Json.arranges_sorted
      obtain ⟨fault, hread⟩ := hread
      refine ⟨fault, ?_⟩
      simp only [Order.reply, hread]
      rfl

end KeyedLedger
