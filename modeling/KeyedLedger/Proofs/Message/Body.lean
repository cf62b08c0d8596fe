import KeyedLedger.Proofs.Ledger.History
import KeyedLedger.Proofs.Message.Reading

/-! # The bodies of events

An event carries one of five bodies: a command of either type, what was opened or applied, or the
news of a rejection. A body is written in one way, but many texts are read as one: with members in
any order, others among them, numbers and times in other forms. Once it has been read, a body is
written in its own form, and reads as itself from then on.

One thing may be lost on the way. A number in scientific notation that vanishes when it is rounded
leaves a zero with its sign, and a zero is read without one.
-/

namespace KeyedLedger

/-- The body of an event. -/
inductive Body where
  | openAccount (command : OpenAccount)
  | applyTransaction (command : ApplyTransaction)
  | opened (account : Account)
  | applied (applied : Applied)
  | rejected (news : Rejection)

namespace Body

/-- The five kinds of bodies. -/
inductive Kind where
  | openAccount
  | applyTransaction
  | opened
  | applied
  | rejected

/-- The kind of a body. -/
def kind : Body → Kind
  | openAccount _ => .openAccount
  | applyTransaction _ => .applyTransaction
  | opened _ => .opened
  | applied _ => .applied
  | rejected _ => .rejected

/-- The type of the events that carry a kind of body. -/
def Kind.eventType : Kind → String
  | openAccount => OpenAccount.eventType
  | applyTransaction => ApplyTransaction.eventType
  | opened => Account.eventType
  | applied => Applied.eventType
  | rejected => Rejection.eventType

/-- A body of a kind, read from a part of a text. -/
def Kind.decoder : Kind → Decoder Body
  | openAccount => OpenAccount.shape.decoder.check fun c => .ok (.openAccount c)
  | applyTransaction => ApplyTransaction.shape.decoder.check fun c => .ok (.applyTransaction c)
  | opened => Account.outcomeShape.decoder.check fun a => .ok (.opened a)
  | applied => Applied.shape.decoder.check fun a => .ok (.applied a)
  | rejected => Rejection.shape.decoder.check fun r => .ok (.rejected r)

/-- The body as JSON. -/
def toJson : Body → Json
  | openAccount c => c.toJson
  | applyTransaction c => c.toJson
  | opened a => a.toOutcome
  | applied a => a.toJson
  | rejected r => r.toJson

/-- The event that carries a body. -/
def event (b : Body) (m : Metadata) : Event :=
  .ofJson b.kind.eventType b.toJson m

/-- The event with its body read as one of a kind and written again. -/
def Kind.rewrite (k : Kind) (e : Event) : Except EventError Event :=
  (e.decode k.decoder).map fun b => b.event e.metadata

/-- The body with its amounts as they are read. -/
def asRead : Body → Body
  | openAccount c => openAccount c
  | applyTransaction c => applyTransaction c.asRead
  | opened a => opened a.asRead
  | applied a => applied a.asRead
  | rejected r => rejected r

/-- The amounts in a body. -/
def amounts : Body → List Decimal
  | openAccount _ => []
  | applyTransaction c => [c.amount]
  | opened a => a.balances.map Balance.available
  | applied a => [a.transaction.amount, a.transaction.balanceAfter, a.balance.available]
  | rejected _ => []

/-- The times in a body. -/
def times : Body → List Timestamp
  | openAccount _ => []
  | applyTransaction _ => []
  | opened a => a.createdAt :: a.updatedAt :: a.balances.map Balance.updatedAt
  | applied a => [a.transaction.createdAt, a.transaction.updatedAt, a.balance.updatedAt]
  | rejected r => [r.timestamp]

/-- The customers in a body. -/
def customers : Body → List CustomerId
  | openAccount c => [c.customer]
  | opened a => [a.customer]
  | _ => []

/-- The countries in a body. -/
def countries : Body → List CountryCode
  | openAccount c => [c.country]
  | opened a => [a.country]
  | _ => []

/-- No amount in the body is a zero with a sign. -/
def Proper (b : Body) : Prop :=
  ∀ d ∈ b.amounts, d.Proper

/-- The times in the body can be written. -/
def Timed (b : Body) : Prop :=
  ∀ t ∈ b.times, Timestamp.yearInRange t.date.year = true

/-! ## What is written is read -/

theorem kind_asRead (b : Body) : b.asRead.kind = b.kind := by
  cases b <;> rfl

theorem amounts_asRead (b : Body) : b.asRead.amounts = b.amounts.map Decimal.asRead := by
  cases b with
  | opened a => simp [asRead, amounts, Account.asRead, Balance.asRead]
  | _ => rfl

theorem times_asRead (b : Body) : b.asRead.times = b.times := by
  cases b with
  | opened a => simp [asRead, times, Account.asRead, Balance.asRead]
  | _ => rfl

theorem Timed.asRead {b : Body} (h : b.Timed) : b.asRead.Timed := by
  rwa [Timed, times_asRead]

theorem proper_asRead (b : Body) : b.asRead.Proper := by
  intro d hd
  rw [amounts_asRead] at hd
  obtain ⟨d, -, rfl⟩ := List.mem_map.mp hd
  exact d.proper_asRead

theorem Proper.asRead_eq {b : Body} (h : b.Proper) : b.asRead = b := by
  have hamount : ∀ d ∈ b.amounts, d.asRead = d := fun d hd => (h d hd).asRead_eq
  cases b with
  | openAccount c => rfl
  | applyTransaction c =>
      rw [asRead, ApplyTransaction.asRead, hamount c.amount (by simp [amounts])]
  | opened a =>
      have hbalance : ∀ b ∈ a.balances, b.asRead = b := by
        intro b hb
        rw [Balance.asRead, hamount b.available (List.mem_map_of_mem hb)]
      rw [asRead, Account.asRead, List.map_congr_left hbalance, List.map_id']
  | applied a =>
      rw [asRead, Applied.asRead, Transaction.asRead, Balance.asRead,
        hamount a.transaction.amount (by simp [amounts]),
        hamount a.transaction.balanceAfter (by simp [amounts]),
        hamount a.balance.available (by simp [amounts])]
  | rejected r => rfl

/-- A body reads as itself exactly if no amount in it is a zero with a sign. -/
theorem asRead_eq_iff {b : Body} : b.asRead = b ↔ b.Proper := by
  refine ⟨fun h => ?_, Proper.asRead_eq⟩
  rw [← h]
  exact proper_asRead b

theorem whole (b : Body) : b.toJson.Whole := by
  cases b with
  | openAccount c => exact c.whole
  | applyTransaction c => exact c.whole
  | opened a => exact a.wholeOutcome
  | applied a => exact a.whole
  | rejected r => exact r.whole

theorem timed_opened {a : Account} : (opened a).Timed ↔ a.Timed := by
  simp only [Timed, times, List.forall_mem_cons, List.forall_mem_map]
  exact ⟨fun ⟨hcreated, hupdated, hbalances⟩ => ⟨hbalances, hcreated, hupdated⟩,
    fun ⟨hbalances, hcreated, hupdated⟩ => ⟨hcreated, hupdated, hbalances⟩⟩

theorem timed_applied {a : Applied} :
    (applied a).Timed ↔ a.transaction.Timed ∧ a.balance.Timed := by
  simp [Timed, times, Transaction.Timed, Balance.Timed, and_assoc]

theorem timed_rejected {r : Rejection} :
    (rejected r).Timed ↔ Timestamp.yearInRange r.timestamp.date.year = true := by
  simp [Timed, times]

theorem Timed.reads {b : Body} (h : b.Timed) : b.kind.decoder.Reads b.toJson b.asRead := by
  cases b with
  | openAccount c => exact .check c.reads rfl
  | applyTransaction c => exact .check c.readsAsRead rfl
  | opened a => exact .check (timed_opened.mp h).readsOutcome rfl
  | applied a =>
      obtain ⟨ht, hb⟩ := timed_applied.mp h
      exact .check (Applied.readsAsRead ht hb) rfl
  | rejected r => exact .check (Rejection.reads (timed_rejected.mp h)) rfl

/-- An event gives back the body that it carries, with the amounts as they are read. -/
theorem Timed.decode_event {b : Body} (h : b.Timed) (m : Metadata) :
    (b.event m).decode b.kind.decoder = .ok b.asRead :=
  Event.decode_ofJson b.whole h.reads _ _

theorem Timed.rewrite_event {b : Body} (h : b.Timed) (m : Metadata) :
    b.kind.rewrite (b.event m) = .ok (b.asRead.event m) := by
  rw [Kind.rewrite, h.decode_event]
  rfl

/-! ## What is read is written -/

theorem yields_timed (k : Kind) : k.decoder.Yields fun b => b.kind = k ∧ b.Timed := by
  cases k with
  | openAccount =>
      refine .check (.trivial _) ?_
      rintro c - b ⟨⟩
      exact ⟨rfl, by simp [Timed, times]⟩
  | applyTransaction =>
      refine .check (.trivial _) ?_
      rintro c - b ⟨⟩
      exact ⟨rfl, by simp [Timed, times]⟩
  | opened =>
      refine .check Account.yields_timed_outcome ?_
      rintro a ha b ⟨⟩
      exact ⟨rfl, timed_opened.mpr ha⟩
  | applied =>
      refine .check Applied.yields_timed.decoder ?_
      rintro a ha b ⟨⟩
      exact ⟨rfl, timed_applied.mpr ha⟩
  | rejected =>
      refine .check Rejection.yields_timed.decoder ?_
      rintro r hr b ⟨⟩
      exact ⟨rfl, timed_rejected.mpr hr⟩

/-- What holds of a body that has been read as one of a kind: written again, it reads as itself but
for the signs of its zeros, and from then on it is written in the same way. -/
structure Settled (k : Kind) (b : Body) : Prop where
  decode_event : ∀ m, (b.event m).decode k.decoder = .ok b.asRead
  rewrite_asRead : ∀ m, k.rewrite (b.asRead.event m) = .ok (b.asRead.event m)
  rewrite_event : b.Proper → ∀ m, (b.event m).decode k.decoder = .ok b ∧
    k.rewrite (b.event m) = .ok (b.event m)
  customers : ∀ c ∈ b.customers, Text.trim c.text = c.text ∧ 1 ≤ c.text.length ∧ c.text.length ≤ 64
  countries : ∀ c ∈ b.countries, c.text.length = 2 ∧ ∀ x ∈ c.text.toList, x.isUpper = true

/-- A body reads as itself where none of its amounts is a zero with a sign, and whatever has been
read as a body is settled. -/
theorem decode_event_settled :
    (∀ b : Body, b.Timed → b.Proper → ∀ m, (b.event m).decode b.kind.decoder = .ok b) ∧
      ∀ (e : Event) (k : Kind) (b : Body), e.decode k.decoder = .ok b → b.Settled k := by
  refine ⟨fun b htimed hproper m => ?_, fun e k b hread => ?_⟩
  · have h := htimed.decode_event m
    rwa [hproper.asRead_eq] at h
  obtain ⟨rfl, htimed⟩ := (yields_timed k).event hread
  refine ⟨htimed.decode_event, fun m => ?_, fun hproper m => ?_,
    fun c _ => ⟨c.trimmed, c.length_pos, c.length_le⟩, fun c _ => ?_⟩
  · have h := htimed.asRead.rewrite_event m
    rwa [b.proper_asRead.asRead_eq, kind_asRead] at h
  · have hdecode := htimed.decode_event m
    have hrewrite := htimed.rewrite_event m
    rw [hproper.asRead_eq] at hdecode hrewrite
    exact ⟨hdecode, hrewrite⟩
  · simp [CountryCode.text, c.first_isUpper, c.second_isUpper]

end Body

namespace Sample

/-- A command with blanks around its customer and its country in small letters. -/
def untidy : Json :=
  .object [
    ("customer_id", .string " CUST1 "),
    ("country", .string "ee"),
    ("currencies", .array [.string "EUR"])]

/-- The command in its own form. -/
def tidied : OpenAccount :=
  ⟨customer, country, [.eur]⟩

theorem reads_untidy : OpenAccount.shape.decoder.Reads untidy tidied := by
  have hcustomer : CustomerId.decoder.Reads (.string " CUST1 ") tidied.customer :=
    .check (.string _) rfl
  have hcountry : CountryCode.decoder.Reads (.string "ee") tidied.country :=
    .check (.string _) rfl
  have hcurrencies : (Decoder.list Currency.decoder).Reads
      (.array ([Currency.eur].map fun k => .string k.code)) [.eur] :=
    .list fun k _ => .name k.ofCode?_code
  refine Shape.Writes.decoder ?_ (by simp)
  unfold OpenAccount.shape
  exact Shape.Writes.map _ (.field hcustomer)
    |>.seq (.field hcountry)
    |>.seq (.field hcurrencies)

/-- An account that was opened in a leap second and is overdrawn, at the lowest version. -/
def overdrawn : Body :=
  .opened ⟨identifier 0, customer, country,
    [⟨identifier 1, identifier 0, .eur, (Money.ofCents 50).negate, Int64.minValue, leapSecond⟩],
    leapSecond, leapSecond⟩

theorem decode_event_settled_untidy :
    (overdrawn.event {}).decode overdrawn.kind.decoder = .ok overdrawn ∧
      Body.Settled .openAccount (.openAccount tidied) := by
  have hyear : Timestamp.yearInRange leapSecond.date.year = true := by
    decide
  have htimed : overdrawn.Timed := by
    simp [Body.Timed, Body.times, overdrawn, hyear]
  have hproper : overdrawn.Proper := by
    simp [Body.Proper, Body.amounts, overdrawn, Decimal.Proper, Decimal.negate, Money.ofCents]
  have hread : Body.Kind.openAccount.decoder.Reads untidy (.openAccount tidied) :=
    .check reads_untidy rfl
  have hwhole : untidy.Whole := by
    simp [untidy]
  exact ⟨Body.decode_event_settled.1 overdrawn htimed hproper {},
    Body.decode_event_settled.2 (.ofJson OpenAccount.eventType untidy {}) .openAccount _
      (Event.decode_ofJson hwhole hread _ _)⟩

/-- A command whose amount vanishes when it is rounded to 28 places. -/
def faint : Json :=
  .object [
    ("account_id", .string (toString Identifier.nil)),
    ("amount", .string "-0.1e-28"),
    ("currency", .string "EUR"),
    ("direction", .string "IN"),
    ("description", .string "x")]

/-- What is left of the amount: a zero with a sign. -/
def vanished : ApplyTransaction :=
  ⟨.nil, (Decimal.zero (Fin.last 28)).negate, .eur, .credit, "x"⟩

theorem reads_faint : ApplyTransaction.shape.decoder.Reads faint vanished := by
  have hamount : Decimal.read? "-0.1e-28" = some vanished.amount := by
    decide
  refine Shape.Writes.decoder ?_ (by simp)
  unfold ApplyTransaction.shape
  exact Shape.Writes.map _ (.field (.identifier .nil))
    |>.seq (.field (.of_string (congrArg Decoder.require hamount)))
    |>.seq (.field (.name Currency.eur.ofCode?_code))
    |>.seq (.field (.name Direction.credit.ofCode?_code))
    |>.seq (.field (.string "x"))

/-- A zero with a sign is not read as it was written. -/
theorem vanished_unsettled :
    (Event.ofJson ApplyTransaction.eventType faint {}).decode Body.Kind.applyTransaction.decoder =
        .ok (.applyTransaction vanished) ∧
      ((Body.applyTransaction vanished).event {}).decode Body.Kind.applyTransaction.decoder ≠
        .ok (.applyTransaction vanished) ∧
      Body.Kind.applyTransaction.rewrite ((Body.applyTransaction vanished).event {}) ≠
        .ok ((Body.applyTransaction vanished).event {}) := by
  have htimed : (Body.applyTransaction vanished).Timed := by
    simp [Body.Timed, Body.times]
  have hread : Body.Kind.applyTransaction.decoder.Reads faint (.applyTransaction vanished) :=
    .check reads_faint rfl
  have hwhole : faint.Whole := by
    simp [faint]
  refine ⟨Event.decode_ofJson hwhole hread _ _, fun h => ?_, fun h => ?_⟩
  · have hread := (htimed.decode_event {}).symm.trans h
    have hproper := Body.asRead_eq_iff.mp (Except.ok.inj hread)
    exact hproper vanished.amount List.mem_cons_self rfl rfl
  · have hwritten := (htimed.rewrite_event {}).symm.trans h
    have hbody := congrArg (fun e => e.body.size) (Except.ok.inj hwritten)
    revert hbody
    decide +kernel

end Sample

end KeyedLedger
