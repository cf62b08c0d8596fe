import KeyedLedger.Ledger.Verdict
import KeyedLedger.Service.Order

/-! # The bank

A gateway and a ledger meet over a broker. The ledger listens to commands and answers each with an
outcome; the gateway publishes commands and listens to outcomes. Time stands still except when it
is set, and fresh identifiers come from a supply, so what the bank does is a function of its
state.

There may be a second gateway, which shares everything with the first one but has a memory of its
own. It then takes the calls, while outcomes are remembered by the first one only.
-/

namespace KeyedLedger

/-- Who takes messages from the broker. -/
inductive Recipient where
  | ledger
  | outcomes (type : RequestType)
deriving DecidableEq, Repr

/-- A gateway, a ledger and the broker between them. -/
structure Bank where
  topics : Topics
  timeout : Span
  now : Timestamp
  supply : Supply
  broker : Broker Recipient
  backend : Backend
  gateway : Gateway
  second : Option Memory

namespace Bank

/-- The gateway listens to the outcomes. -/
def listening (broker : Broker Recipient) (topics : Topics) : Broker Recipient :=
  (broker.subscribe (.outcomes .openAccount) topics.accountOutcomes).subscribe
    (.outcomes .applyTransaction) topics.transactionOutcomes

/-- A bank in which nothing has happened yet. The ledger does not listen. Its gateway remembers a key
for `lifetime` milliseconds. -/
def initial (topics : Topics) (timeout : Span) (lifetime : Int) (supply : Supply)
    (reachable : Bool) : Bank where
  topics := topics
  timeout := timeout
  now := .start2025
  supply := supply
  broker := listening { reachable := reachable } topics
  backend := {}
  gateway := { memory := { lifetime := lifetime * Timestamp.nanosPerMilli } }
  second := none

/-- From now on the ledger listens to commands. -/
def startLedger (s : Bank) : Bank :=
  { s with broker := s.broker.subscribe .ledger s.topics.commands }

/-- From now on a new gateway takes the calls. -/
def openSecond (s : Bank) : Bank :=
  { s with second := some { lifetime := s.gateway.memory.lifetime } }

/-- The memory of the gateway that takes the calls. -/
def memory (s : Bank) : Memory :=
  s.second.getD s.gateway.memory

/-- The bank with another memory of the gateway that takes the calls. -/
def withMemory (s : Bank) (m : Memory) : Bank :=
  match s.second with
  | some _ => { s with second := some m }
  | none => { s with gateway := { s.gateway with memory := m } }

/-- Time moves by a number of milliseconds. -/
def advance (s : Bank) (millis : Int) : Bank :=
  { s with now := s.now.shift millis }

/-- A fresh identifier. -/
def fresh (s : Bank) : Identifier × Bank :=
  (s.supply.take.1, { s with supply := s.supply.take.2 })

/-- What the ledger and the gateway have counted. They count different series. -/
def metrics (s : Bank) : Metrics :=
  ⟨s.backend.metrics.values ++ s.gateway.metrics.values⟩

/-! ## Reading -/

/-- A read of the store, as a caller is told of its failure. -/
def readable {α : Type} : Except StoreError α → Except ServiceError α
  | .ok a => .ok a
  | .error e => .error (.internal s!"ledger read failed: {e.message}")

/-- The account of an identifier. -/
def find (s : Bank) (id : Identifier) : Except ServiceError Account × Bank :=
  match s.backend.store.account? id with
  | (found, store) =>
    (do
      match ← readable found with
      | some account => return account
      | none => throw (.accountNotFound s!"Account {id} not found"),
    { s with backend := { s.backend with store := store } })

/-- What a caller is shown of an account. -/
def account (s : Bank) (raw : String) : Except ServiceError AccountView × Bank :=
  match readAccountId raw with
  | .error e => (.error e, s)
  | .ok id =>
    match s.find id with
    | (found, s) => (found.map .ofAccount, s)

/-- What a caller is shown of the transactions of an account, oldest first. -/
def transactions (s : Bank) (raw : String) : Except ServiceError (List TransactionView) × Bank :=
  match readAccountId raw with
  | .error e => (.error e, s)
  | .ok id =>
    match s.find id with
    | (.error e, s) => (.error e, s)
    | (.ok _, s) =>
      match s.backend.store.transactionsOf id with
      | (found, store) =>
        ((readable found).map fun ts => ts.map .ofTransaction,
          { s with backend := { s.backend with store := store } })

end Bank

end KeyedLedger
