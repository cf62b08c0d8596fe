import KeyedLedger.Json.Decoder

/-! # Topics

Each of the two domains has a topic for its commands, one for what was completed, and one
for what failed.
-/

namespace KeyedLedger

/-- The names of the topics. -/
structure Topics where
  accountCommands : String := "accounts.events.created"
  accountCompleted : String := "accounts.events.completed"
  accountFailed : String := "accounts.events.failed"
  transactionCommands : String := "transactions.events.created"
  transactionCompleted : String := "transactions.events.completed"
  transactionFailed : String := "transactions.events.failed"
deriving DecidableEq, Inhabited

namespace Topics

/-- The topics that the ledger listens to. -/
def commands (t : Topics) : List String :=
  [t.accountCommands, t.transactionCommands]

/-- The topics on which the ledger answers commands on accounts. -/
def accountOutcomes (t : Topics) : List String :=
  [t.accountCompleted, t.accountFailed]

/-- The topics on which the ledger answers commands on transactions. -/
def transactionOutcomes (t : Topics) : List String :=
  [t.transactionCompleted, t.transactionFailed]

/-- All topics on which the ledger answers. -/
def outcomes (t : Topics) : List String :=
  t.accountOutcomes ++ t.transactionOutcomes

/-- The topics as JSON. -/
def toJson (t : Topics) : Json :=
  .object [
    ("account_commands", .string t.accountCommands),
    ("account_completed", .string t.accountCompleted),
    ("account_failed", .string t.accountFailed),
    ("transaction_commands", .string t.transactionCommands),
    ("transaction_completed", .string t.transactionCompleted),
    ("transaction_failed", .string t.transactionFailed)]

/-- The fields of the topics. -/
def shape : Shape Topics :=
  mk <$> .field "account_commands" .string
    <*> .field "account_completed" .string
    <*> .field "account_failed" .string
    <*> .field "transaction_commands" .string
    <*> .field "transaction_completed" .string
    <*> .field "transaction_failed" .string

end Topics

end KeyedLedger
