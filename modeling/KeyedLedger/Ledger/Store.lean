import KeyedLedger.Ledger.Basic

/-! # The store

The ledger is changed in units of work. A unit of work begins with a draft of what is committed,
reads and writes the draft, and replaces what is committed when it commits. One that ends
otherwise leaves no trace in the ledger.

Any call to the store may fail. Which calls do is told by `Disturbances`: what goes wrong with a
call, given all the calls up to it. They are an input, so a statement can speak of any pattern of
failures.
-/

namespace KeyedLedger

/-- What the store can be asked for. -/
inductive StoreCall where
  | begin
  | receipt
  | account
  | lockBalance
  | insertAccount
  | insertBalance
  | updateBalance
  | insertTransaction
  | insertReceipt
  | commit
  | readAccount
  | readTransactions
deriving DecidableEq, Repr

/-- The calls, in order. -/
def StoreCall.all : List StoreCall :=
  [begin, receipt, account, lockBalance, insertAccount, insertBalance, updateBalance,
    insertTransaction, insertReceipt, commit, readAccount, readTransactions]

/-- What can go wrong with a call: it fails, or it does not see a receipt that is there. -/
inductive Disturbance where
  | fails (error : StoreError)
  | overlooks
deriving DecidableEq

/-- What goes wrong with a call, given the calls so far, the newest first. -/
abbrev Disturbances := List StoreCall → Option Disturbance

namespace Disturbances

/-- Nothing goes wrong. -/
def none : Disturbances :=
  fun _ => Option.none

/-- The first call of one kind is disturbed. -/
def once (kind : StoreCall) (disturbance : Disturbance) : Disturbances
  | call :: before => if call = kind ∧ kind ∉ before then some disturbance else Option.none
  | [] => Option.none

end Disturbances

/-- What is committed, what is to go wrong, and the calls made since. -/
structure Store where
  ledger : Ledger := {}
  disturbances : Disturbances := .none
  calls : List StoreCall := []

namespace Store

instance : Inhabited Store := ⟨{}⟩

/-- Notes a call, and tells what goes wrong with it. -/
def note (s : Store) (call : StoreCall) : Option Disturbance × Store :=
  (s.disturbances (call :: s.calls), { s with calls := call :: s.calls })

/-- The store with what is to go wrong from now on. -/
def disturb (s : Store) (d : Disturbances) : Store :=
  { s with disturbances := d, calls := [] }

/-- A read outside of any unit of work. -/
def read {α : Type} (s : Store) (call : StoreCall) (f : Ledger → α) : Except StoreError α × Store :=
  match s.note call with
  | (some (.fails e), s) => (.error e, s)
  | (_, s) => (.ok (f s.ledger), s)

/-- The account as it is committed. -/
def account? (s : Store) (id : Identifier) : Except StoreError (Option Account) × Store :=
  s.read .readAccount fun l => l.account? id

/-- The committed transactions of an account. -/
def transactionsOf (s : Store) (id : Identifier) : Except StoreError (List Transaction) × Store :=
  s.read .readTransactions fun l => l.transactionsOf id

end Store

/-- A store with the draft of a unit of work. -/
structure Session where
  store : Store
  draft : Ledger

/-- A unit of work, or a part of one. -/
abbrev Work (α : Type) := Session → Except StoreError α × Session

namespace Work

/-- Makes a call that acts on the store and the draft unless it is made to fail. -/
def call {α : Type} (c : StoreCall) (act : Work α) : Work α := fun s =>
  match s.store.note c with
  | (some (.fails e), store) => (.error e, { s with store := store })
  | (_, store) => act { s with store := store }

/-- Reads the draft. -/
def reads {α : Type} (f : Ledger → α) : Work α := fun s =>
  (.ok (f s.draft), s)

/-- Writes the draft. -/
def writes (f : Ledger → Except StoreError Ledger) : Work Unit := fun s =>
  match f s.draft with
  | .ok draft => (.ok (), { s with draft := draft })
  | .error e => (.error e, s)

/-- Begins: the draft is what is committed. -/
def begin : Work Unit :=
  call .begin fun s => (.ok (), { s with draft := s.store.ledger })

/-- The receipt under a key, unless it is overlooked. -/
def receipt? (key : String) : Work (Option Receipt) := fun s =>
  match s.store.note .receipt with
  | (some (.fails e), store) => (.error e, { s with store := store })
  | (some .overlooks, store) => (.ok none, { s with store := store })
  | (none, store) => (.ok (s.draft.receipt? key), { s with store := store })

/-- The account with its balances. -/
def account? (id : Identifier) : Work (Option Account) :=
  call .account (reads fun l => l.account? id)

/-- The balance of an account in a currency, to be changed by this unit of work alone. -/
def lockBalance? (account : Identifier) (currency : Currency) : Work (Option Balance) :=
  call .lockBalance (reads fun l => l.balance? account currency)

/-- Stores the account, without its balances. -/
def insertAccount (a : Account) : Work Unit :=
  call .insertAccount (writes fun l => .ok (l.insertAccount a))

/-- Stores the balance. -/
def insertBalance (b : Balance) : Work Unit :=
  call .insertBalance (writes fun l => .ok (l.insertBalance b))

/-- Stores the balance if the stored one is still at the expected version. -/
def updateBalance (b : Balance) (expected : Int64) : Work Unit :=
  call .updateBalance (writes fun l => l.updateBalance b expected)

/-- Stores the transaction. -/
def insertTransaction (t : Transaction) : Work Unit :=
  call .insertTransaction (writes fun l => l.insertTransaction t)

/-- Stores the receipt. -/
def insertReceipt (r : Receipt) : Work Unit :=
  call .insertReceipt (writes fun l => l.insertReceipt r)

/-- Commits: what is committed is the draft. -/
def commit : Work Unit :=
  call .commit fun s => (.ok (), { s with store := { s.store with ledger := s.draft } })

end Work

end KeyedLedger
