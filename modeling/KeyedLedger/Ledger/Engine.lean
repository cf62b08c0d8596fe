import KeyedLedger.Ledger.Error
import KeyedLedger.Ledger.Store
import KeyedLedger.Message.Command

/-! # Applying commands

A command is applied once for its key. A receipt under the key means that it has been applied:
the recorded result is the answer, and nothing changes. Otherwise the command is carried out in
one unit of work that ends with a receipt of its own, so a refused command leaves nothing behind
and may be tried again.

Where the store reports that the key was used meanwhile, the attempt is given up and the receipt
is looked up once more. A key that was used for a request of the other type is refused.
-/

namespace KeyedLedger

/-- The result of a command, and whether it is that of an earlier command under its key. -/
structure Answer (α : Type) where
  value : α
  replayed : Bool
deriving DecidableEq

/-- A unit of work that may refuse the command. -/
abbrev Attempt := ExceptT LedgerError (StateM Session)

namespace Attempt

/-- A call to the store; if it fails the command is refused. -/
def ask {α : Type} (work : Work α) : Attempt α := fun s =>
  match work s with
  | (.ok a, s) => (.ok a, s)
  | (.error e, s) => (.error (.ofStore e), s)

/-- A rule of the domain; if it refuses, the command is refused. -/
def obey {α : Type} (rule : Except Refusal α) : Attempt α :=
  match rule with
  | .ok a => return a
  | .error r => throw (.refused r)

/-- What is there, else a refusal. -/
def demand {α : Type} (found : Option α) (otherwise : LedgerError) : Attempt α :=
  match found with
  | some a => return a
  | none => throw otherwise

/-- The result recorded under a key, if there is one. -/
def replay {α : Type} (key : String) (type : RequestType) (shape : Shape α) :
    Attempt (Option (Answer α)) := do
  let some receipt ← ask (Work.receipt? key) | return none
  if receipt.requestType ≠ type.code then throw (.keyTaken key receipt.requestType)
  match shape.decoder.ofJson receipt.result with
  | .ok value => return some ⟨value, true⟩
  | .error fault => throw (.store (.corrupt fault.message))

/-- The result recorded under a key that has been reported as used. -/
def replayCommitted {α : Type} (key : String) (type : RequestType) (shape : Shape α) :
    Attempt (Answer α) := do
  ask Work.begin
  let found ← replay key type shape
  demand found (.store (.corrupt s!"duplicate reported for '{key}' but no processed record exists"))

/-- Opens the account, unless that has been done under the key. -/
def openAccount (command : OpenAccount) (key : String) (now : Timestamp) (draw : Draw) :
    Attempt (Answer Account) := do
  ask Work.begin
  if let some answer ← replay key .openAccount Account.shape then return answer
  let account ← obey (Account.opening command.customer command.country command.currencies now draw)
  ask (Work.insertAccount account)
  account.balances.forM fun b => ask (Work.insertBalance b)
  ask (Work.insertReceipt ⟨key, RequestType.openAccount.code, now, account.toJson.sorted⟩)
  ask Work.commit
  return ⟨account, false⟩

/-- The record of a command that moves a balance. -/
def record (command : ApplyTransaction) (amount : Decimal) (balance : Balance) (key : String)
    (now : Timestamp) (draw : Draw) : Transaction where
  id := draw.transaction
  accountId := command.accountId
  balanceId := balance.id
  amount := amount
  currency := command.currency
  direction := command.direction
  description := command.description
  balanceAfter := balance.available
  status := .completed
  key := key
  createdAt := now
  updatedAt := now

/-- Applies the transaction, unless that has been done under the key. -/
def applyTransaction (command : ApplyTransaction) (key : String) (now : Timestamp) (draw : Draw) :
    Attempt (Answer Applied) := do
  let amount ← obey (Money.validate command.amount)
  obey (checkDescription command.description)
  ask Work.begin
  if let some answer ← replay key .applyTransaction Applied.shape then return answer
  let _ ← demand (← ask (Work.account? command.accountId)) (.accountNotFound command.accountId)
  let current ← demand (← ask (Work.lockBalance? command.accountId command.currency))
    (.currencyNotFound command.accountId command.currency)
  let balance ← obey (current.move command.direction amount now)
  ask (Work.updateBalance balance current.version)
  let transaction := record command amount balance key now draw
  ask (Work.insertTransaction transaction)
  let applied : Applied := ⟨transaction, balance⟩
  ask (Work.insertReceipt ⟨key, RequestType.applyTransaction.code, now, applied.toJson.sorted⟩)
  ask Work.commit
  return ⟨applied, false⟩

/-- The attempt, and if it meets a duplicate of its key, the result recorded under the key. -/
def resolvingDuplicates {α : Type} (key : String) (type : RequestType) (shape : Shape α)
    (attempt : Attempt (Answer α)) : Attempt (Answer α) := fun s =>
  match attempt s with
  | (.error (.store (.duplicate _)), s) => replayCommitted key type shape s
  | result => result

end Attempt

namespace Store

/-- Runs an attempt on the store. -/
def run {α : Type} (s : Store) (attempt : Attempt α) : Except LedgerError α × Store :=
  match attempt ⟨s, s.ledger⟩ with
  | (result, session) => (result, session.store)

/-- Opens an account, once for the key. -/
def openAccount (s : Store) (command : OpenAccount) (key : String) (now : Timestamp)
    (draw : Draw) : Except LedgerError (Answer Account) × Store :=
  s.run <| .resolvingDuplicates key .openAccount Account.shape <|
    .openAccount command key now draw

/-- Applies a transaction, once for the key. -/
def applyTransaction (s : Store) (command : ApplyTransaction) (key : String) (now : Timestamp)
    (draw : Draw) : Except LedgerError (Answer Applied) × Store :=
  s.run <| .resolvingDuplicates key .applyTransaction Applied.shape <|
    .applyTransaction command key now draw

end Store

end KeyedLedger
