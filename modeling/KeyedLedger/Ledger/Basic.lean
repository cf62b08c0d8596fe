import KeyedLedger.Entity.Receipt
import KeyedLedger.Entity.Transaction

/-! # The ledger

What is stored are four lists: accounts, balances, transactions and receipts. An account is
stored without its balances, which belong to it by its identifier. Transactions are kept oldest
first, and no two of them have one key; nor do two receipts.

Each write to the ledger is a function from ledgers to ledgers, or to the reason why the write
is refused.
-/

namespace KeyedLedger

/-- An account without its balances. -/
structure AccountRow where
  id : Identifier
  customer : CustomerId
  country : CountryCode
  createdAt : Timestamp
  updatedAt : Timestamp
deriving DecidableEq

/-- The account less its balances. -/
def Account.row (a : Account) : AccountRow :=
  ⟨a.id, a.customer, a.country, a.createdAt, a.updatedAt⟩

/-- The account with the given balances. -/
def AccountRow.withBalances (r : AccountRow) (balances : List Balance) : Account :=
  ⟨r.id, r.customer, r.country, balances, r.createdAt, r.updatedAt⟩

/-- Why the store does not do what it is asked. -/
inductive StoreError where
  | duplicate (key : String)
  | versionConflict (balance : String) (expected : Int64)
  | corrupt (detail : String)
  | database (detail : String)
deriving DecidableEq

/-- What is said of a failure of the store. -/
def StoreError.message : StoreError → String
  | duplicate key => s!"Message '{key}' was already processed"
  | versionConflict balance expected => s!"Balance {balance} is no longer at version {expected.toInt}"
  | corrupt detail => s!"Corrupt row: {detail}"
  | database detail => s!"Database error: {detail}"

/-- What is stored. -/
structure Ledger where
  accounts : List AccountRow := []
  balances : List Balance := []
  transactions : List Transaction := []
  receipts : List Receipt := []

namespace Ledger

instance : Inhabited Ledger := ⟨{}⟩

/-- The list with a row in the place of the first that has the same name, or at the end. -/
def upsert {α κ : Type} [DecidableEq κ] (name : α → κ) (row : α) : List α → List α
  | [] => [row]
  | r :: rest => if name r = name row then row :: rest else r :: upsert name row rest

/-! ## Reading -/

/-- The balances of an account, in the order of the currencies. -/
def balancesOf (l : Ledger) (id : Identifier) : List Balance :=
  Currency.all.flatMap fun c => l.balances.filter fun b => b.accountId = id ∧ b.currency = c

/-- The account with its balances. -/
def account? (l : Ledger) (id : Identifier) : Option Account :=
  (l.accounts.find? fun r => r.id = id).map fun r => r.withBalances (l.balancesOf id)

/-- The balance of an account in a currency. -/
def balance? (l : Ledger) (account : Identifier) (currency : Currency) : Option Balance :=
  l.balances.find? fun b => b.accountId = account ∧ b.currency = currency

/-- The transactions of an account, oldest first. -/
def transactionsOf (l : Ledger) (id : Identifier) : List Transaction :=
  l.transactions.filter fun t => t.accountId = id

/-- The receipt under a key. -/
def receipt? (l : Ledger) (key : String) : Option Receipt :=
  l.receipts.find? fun r => r.key = key

/-! ## Writing -/

/-- Stores the account, without its balances. -/
def insertAccount (l : Ledger) (a : Account) : Ledger :=
  { l with accounts := upsert AccountRow.id a.row l.accounts }

/-- Stores the balance. -/
def insertBalance (l : Ledger) (b : Balance) : Ledger :=
  { l with balances := upsert Balance.id b l.balances }

/-- Stores the balance in the place of the one with its identifier, if that is still at the
expected version. -/
def updateBalance (l : Ledger) (b : Balance) (expected : Int64) : Except StoreError Ledger :=
  match l.balances.find? fun c => c.id = b.id with
  | some current =>
    if current.version = expected then .ok (l.insertBalance b)
    else .error (.versionConflict (toString b.id) expected)
  | none => .error (.versionConflict (toString b.id) expected)

/-- Stores the transaction behind the others, unless one of them has its key. -/
def insertTransaction (l : Ledger) (t : Transaction) : Except StoreError Ledger :=
  if l.transactions.any fun u => u.key = t.key then .error (.duplicate t.key)
  else .ok { l with transactions := l.transactions ++ [t] }

/-- Stores the receipt, unless there is one under its key. -/
def insertReceipt (l : Ledger) (r : Receipt) : Except StoreError Ledger :=
  if l.receipts.any fun s => s.key = r.key then .error (.duplicate r.key)
  else .ok { l with receipts := l.receipts ++ [r] }

end Ledger

end KeyedLedger
