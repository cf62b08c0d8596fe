import KeyedLedger.Message.Command
import KeyedLedger.Message.Outcome

/-! # Metrics

Five counters and one gauge tell what the ledger and its gateway do. A series appears once it
has been counted or set; its text is the name of the metric with its label.
-/

namespace KeyedLedger

/-- What is measured, apart for each label. -/
inductive Series where
  /-- Commands that the broker took. -/
  | published (requestType : String)
  /-- Callers that stopped waiting. -/
  | timedOut (requestType : String)
  /-- Outcomes that met no caller. -/
  | uncorrelated (domain : String)
  /-- Keys that are waited for now. -/
  | pending
  /-- Transactions that moved a balance. -/
  | applied (direction : Direction)
  /-- Commands that the ledger refused. -/
  | rejected (code : ErrorCode)
deriving DecidableEq

namespace Series

/-- The name of the metric. -/
def name : Series → String
  | published _ => "bridge_commands_published_total"
  | timedOut _ => "bridge_timeouts_total"
  | uncorrelated _ => "bridge_outcomes_uncorrelated_total"
  | pending => "bridge_pending_requests"
  | applied _ => "ledger_transactions_total"
  | rejected _ => "ledger_rejections_total"

/-- The kind of the metric. -/
def kind : Series → String
  | pending => "gauge"
  | _ => "counter"

/-- What the metric measures. -/
def description : Series → String
  | published _ => "Commands published to the broker, by request type"
  | timedOut _ => "Requests that timed out waiting for an outcome, by request type"
  | uncorrelated _ => "Outcomes that matched no waiting request, by domain"
  | pending => "Requests currently waiting for an outcome"
  | applied _ => "Transactions applied to a balance, by direction"
  | rejected _ => "Commands refused by the ledger, by error code"

/-- The label, with its name. -/
def label? : Series → Option (String × String)
  | published requestType => some ("request_type", requestType)
  | timedOut requestType => some ("request_type", requestType)
  | uncorrelated domain => some ("domain", domain)
  | pending => none
  | applied direction => some ("direction", direction.code)
  | rejected code => some ("code", code.code)

/-- The characters of a label between its quotes. A backslash is doubled unless the character
before it has been one already. -/
def labelChars : (slash : Bool) → List Char → List Char
  | slash, [] => if slash then ['\\', '\\'] else []
  | slash, '\n' :: rest => '\\' :: 'n' :: labelChars slash rest
  | _, '"' :: rest => '\\' :: '"' :: labelChars false rest
  | slash, '\\' :: rest => (if slash then ['\\', '\\'] else []) ++ labelChars (!slash) rest
  | slash, c :: rest => (if slash then ['\\', '\\'] else []) ++ c :: labelChars false rest

/-- The series as a line of the exposition names it. -/
def text (s : Series) : String :=
  match s.label? with
  | none => s.name
  | some (key, value) =>
    s.name ++ "\x7b" ++ key ++ "=\"" ++ String.ofList (labelChars false value.toList) ++ "\"\x7d"

/-- The line that describes the metric. -/
def helpLine (s : Series) : String :=
  s!"# HELP {s.name} {s.description}"

/-- The line that names the kind of the metric. -/
def typeLine (s : Series) : String :=
  s!"# TYPE {s.name} {s.kind}"

end Series

/-- The values of the series that have one. -/
structure Metrics where
  values : List (Series × Nat) := []

namespace Metrics

instance : Inhabited Metrics := ⟨{}⟩

/-- The values with one of them replaced. -/
def replace (s : Series) (n : Nat) : List (Series × Nat) → List (Series × Nat)
  | [] => [(s, n)]
  | (t, m) :: rest => if t = s then (s, n) :: rest else (t, m) :: replace s n rest

/-- The value of a series; zero before it appears. -/
def value (m : Metrics) (s : Series) : Nat :=
  (m.values.lookup s).getD 0

/-- Sets a gauge. -/
def set (m : Metrics) (s : Series) (n : Nat) : Metrics :=
  ⟨replace s n m.values⟩

/-- Counts one more. -/
def count (m : Metrics) (s : Series) : Metrics :=
  m.set s (m.value s + 1)

/-- Counts one more of each. -/
def countAll (m : Metrics) (series : List Series) : Metrics :=
  series.foldl count m

/-! ## Showing -/

/-- The lines about the metrics that have a value, in order: what kind each of them is and, if it is
asked for, what it measures. -/
def about (m : Metrics) (described : Bool) : List String :=
  let series := m.values.map Prod.fst
  let lines := (if described then series.map Series.helpLine else []) ++ series.map Series.typeLine
  lines.eraseDups.mergeSort fun a b => a ≤ b

/-- The values as JSON, each of them as a text. -/
def toJson (m : Metrics) : Json :=
  .object (m.values.map fun (s, n) => (s.text, .string (toString n)))

end Metrics

end KeyedLedger
