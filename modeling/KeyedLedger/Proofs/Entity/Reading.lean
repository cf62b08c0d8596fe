import KeyedLedger.Entity.Transaction
import KeyedLedger.Proofs.Decimal.Reading
import KeyedLedger.Proofs.Entity.Names
import KeyedLedger.Proofs.Json.Record
import KeyedLedger.Proofs.Time.Reading

/-! # Entities read back as they were written

The results that the ledger keeps are accounts, and transactions with their balances. Each reads
back if its times are in the range of the calendar, and as itself if no amount is a zero with a
sign.
-/

namespace KeyedLedger

namespace Decoder

/-! ## Values -/

theorem Reads.of_string {α : Type} {d : Decoder α} {s : String} {a : α}
    (h : d (.string (some s)) = .ok a) : d.Reads (.string s) a := by
  intro f hf
  rw [ofJson, hf.string]
  exact h

theorem Reads.string (s : String) : Decoder.string.Reads (.string s) s :=
  .of_string rfl

theorem Reads.check {α β : Type} {d : Decoder α} {g : α → Except Fault β} {j : Json} {a : α} {b : β}
    (hd : d.Reads j a) (hg : g a = .ok b) : (d.check g).Reads j b := by
  intro f hf
  have hread : d (Document.ofJson (f j)) = .ok a := hd f hf
  rw [ofJson, Decoder.check, hread]
  exact hg

theorem Reads.identifier (id : Identifier) :
    Decoder.identifier.Reads (.string (toString id)) id := by
  apply Reads.check (Reads.string _)
  rw [Identifier.read?_toString]
  rfl

theorem Reads.decimal (d : Decimal) :
    Decoder.decimal.Reads (.string (toString d)) d.asRead := by
  apply Reads.of_string
  rw [Decoder.decimal, Decimal.read?_toString]
  rfl

theorem Reads.timestamp {t : Timestamp} (h : Timestamp.yearInRange t.date.year = true) :
    Decoder.timestamp.Reads (.string (toString t)) t := by
  apply Reads.check (Reads.string _)
  rw [Timestamp.readLenient?_toString h]
  rfl

theorem Reads.name {α : Type} {named? : String → Option α} {s : String} {a : α}
    (h : named? s = some a) : (Decoder.name named?).Reads (.string s) a := by
  apply Reads.of_string
  rw [Decoder.name, h]
  rfl

theorem Reads.customer (id : CustomerId) : CustomerId.decoder.Reads (.string id.text) id := by
  apply Reads.check (Reads.string _)
  rw [CustomerId.read_text]
  rfl

theorem Reads.country (c : CountryCode) : CountryCode.decoder.Reads (.string c.text) c := by
  apply Reads.check (Reads.string _)
  rw [CountryCode.read_text]
  rfl

theorem Reads.int {least greatest n : Int} (hleast : least ≤ n) (hgreatest : n ≤ greatest) :
    (Decoder.int least greatest).Reads (.ofInt n) n := by
  have hrange : require (if least ≤ n ∧ n ≤ greatest then some n else none) = .ok n := by
    rw [if_pos ⟨hleast, hgreatest⟩]
    rfl
  intro f hf
  rw [ofJson, Json.ofInt, hf.number, Document.ofJson, Decoder.int]
  cases n with
  | ofNat m =>
      obtain ⟨c, cs, hcs, hc⟩ := Text.exists_cons_toDigits m
      -- A number without a sign starts with a digit.
      have hminus : c ≠ '-' := Text.ne_of_isDigit hc (by decide)
      have hdigits := Text.natural?_toDigits m
      rw [Text.toList_toString_ofNat]
      rw [hcs] at hdigits ⊢
      split
      next digits hsign => exact absurd (List.cons.inj hsign).1 hminus
      next =>
        rw [hdigits]
        exact hrange
  | negSucc m =>
      rw [Text.toList_toString_negSucc]
      simp only [Text.natural?_toDigits, Option.bind_some]
      rw [if_neg m.succ_ne_zero]
      exact hrange

theorem Reads.int64 (n : Int64) : Decoder.int64.Reads (.ofInt n.toInt) n := by
  apply Reads.check (Reads.int n.minValue_le_toInt n.toInt_le)
  rw [Int64.ofInt_toInt]

end Decoder

/-! ## Entities -/

open Decoder Shape

/-- The balance can be written without loss. -/
structure Balance.Legible (b : Balance) : Prop where
  available : b.available.negative = true → b.available.mantissa ≠ 0
  updatedAt : Timestamp.yearInRange b.updatedAt.date.year = true

/-- The transaction can be written without loss. -/
structure Transaction.Legible (t : Transaction) : Prop where
  amount : t.amount.negative = true → t.amount.mantissa ≠ 0
  balanceAfter : t.balanceAfter.negative = true → t.balanceAfter.mantissa ≠ 0
  createdAt : Timestamp.yearInRange t.createdAt.date.year = true
  updatedAt : Timestamp.yearInRange t.updatedAt.date.year = true

/-- The account can be written without loss. -/
structure Account.Legible (a : Account) : Prop where
  balances : ∀ b ∈ a.balances, b.Legible
  createdAt : Timestamp.yearInRange a.createdAt.date.year = true
  updatedAt : Timestamp.yearInRange a.updatedAt.date.year = true

/-! Without a condition on the amounts, an entity is read with each of them as it is read. -/

/-- The balance with its amount as it is read. -/
def Balance.asRead (b : Balance) : Balance :=
  { b with available := b.available.asRead }

/-- The transaction with its amounts as they are read. -/
def Transaction.asRead (t : Transaction) : Transaction :=
  { t with amount := t.amount.asRead, balanceAfter := t.balanceAfter.asRead }

/-- The account with its balances as they are read. -/
def Account.asRead (a : Account) : Account :=
  { a with balances := a.balances.map Balance.asRead }

/-- The transaction with its balance, both as they are read. -/
def Applied.asRead (a : Applied) : Applied :=
  ⟨a.transaction.asRead, a.balance.asRead⟩

/-- The time of a balance can be written. -/
def Balance.Timed (b : Balance) : Prop :=
  Timestamp.yearInRange b.updatedAt.date.year = true

/-- The times of a transaction can be written. -/
def Transaction.Timed (t : Transaction) : Prop :=
  Timestamp.yearInRange t.createdAt.date.year = true ∧
    Timestamp.yearInRange t.updatedAt.date.year = true

/-- The times of an account and of its balances can be written. -/
def Account.Timed (a : Account) : Prop :=
  (∀ b ∈ a.balances, b.Timed) ∧ Timestamp.yearInRange a.createdAt.date.year = true ∧
    Timestamp.yearInRange a.updatedAt.date.year = true

theorem Balance.Timed.reads {b : Balance} (h : b.Timed) :
    Balance.shape.decoder.Reads b.toJson b.asRead := by
  refine Writes.decoder ?_ (by simp)
  unfold Balance.shape
  exact Writes.map _ (Writes.field (.identifier b.id))
    |>.seq (Writes.field (.identifier b.accountId))
    |>.seq (Writes.field (.name b.currency.ofCode?_code))
    |>.seq (Writes.field (.decimal b.available))
    |>.seq (Writes.field (.int64 b.version))
    |>.seq (Writes.field (.timestamp h))

theorem Account.Timed.reads {a : Account} (h : a.Timed) :
    Account.shape.decoder.Reads a.toJson a.asRead := by
  have hbalances : (Decoder.list Balance.shape.decoder).Reads
      (.array (a.balances.map Balance.toJson)) (a.balances.map Balance.asRead) :=
    .listOf fun b hb => (h.1 b hb).reads
  refine Writes.decoder ?_ (by simp)
  unfold Account.shape
  exact Writes.map _ (Writes.field (.identifier a.id))
    |>.seq (Writes.field (.customer a.customer))
    |>.seq (Writes.field (.country a.country))
    |>.seq (Writes.field hbalances)
    |>.seq (Writes.field (.timestamp h.2.1))
    |>.seq (Writes.field (.timestamp h.2.2))

theorem Transaction.Timed.reads {t : Transaction} (h : t.Timed) :
    Transaction.shape.decoder.Reads t.toJson t.asRead := by
  refine Writes.decoder ?_ (by simp)
  unfold Transaction.shape
  exact Writes.map _ (Writes.field (.identifier t.id))
    |>.seq (Writes.field (.identifier t.accountId))
    |>.seq (Writes.field (.identifier t.balanceId))
    |>.seq (Writes.field (.decimal t.amount))
    |>.seq (Writes.field (.name t.currency.ofCode?_code))
    |>.seq (Writes.field (.name t.direction.ofCode?_code))
    |>.seq (Writes.field (.string t.description))
    |>.seq (Writes.field (.decimal t.balanceAfter))
    |>.seq (Writes.field (.name t.status.ofCode?_code))
    |>.seq (Writes.field (.string t.key))
    |>.seq (Writes.field (.timestamp h.1))
    |>.seq (Writes.field (.timestamp h.2))

theorem Applied.readsAsRead {a : Applied} (ht : a.transaction.Timed) (hb : a.balance.Timed) :
    Applied.shape.decoder.Reads a.toJson a.asRead := by
  refine Writes.decoder ?_ (by simp)
  unfold Applied.shape
  exact Writes.map _ (Writes.field ht.reads) |>.seq (Writes.field hb.reads)

/-! What can be written without loss is read as it is. -/

theorem Balance.Legible.asRead_eq {b : Balance} (h : b.Legible) : b.asRead = b := by
  rw [Balance.asRead, Decimal.Proper.asRead_eq h.available]

theorem Transaction.Legible.asRead_eq {t : Transaction} (h : t.Legible) : t.asRead = t := by
  rw [Transaction.asRead, Decimal.Proper.asRead_eq h.amount,
    Decimal.Proper.asRead_eq h.balanceAfter]

theorem Account.Legible.asRead_eq {a : Account} (h : a.Legible) : a.asRead = a := by
  rw [Account.asRead, List.map_congr_left fun b hb => (h.balances b hb).asRead_eq, List.map_id']

theorem Balance.Legible.reads {b : Balance} (h : b.Legible) :
    Balance.shape.decoder.Reads b.toJson b := by
  have hread := Balance.Timed.reads h.updatedAt
  rwa [h.asRead_eq] at hread

theorem Account.Legible.reads {a : Account} (h : a.Legible) :
    Account.shape.decoder.Reads a.toJson a := by
  have hread := Account.Timed.reads
    ⟨fun b hb => (h.balances b hb).updatedAt, h.createdAt, h.updatedAt⟩
  rwa [h.asRead_eq] at hread

theorem Transaction.Legible.reads {t : Transaction} (h : t.Legible) :
    Transaction.shape.decoder.Reads t.toJson t := by
  have hread := Transaction.Timed.reads ⟨h.createdAt, h.updatedAt⟩
  rwa [h.asRead_eq] at hread

theorem Applied.reads {a : Applied} (ht : a.transaction.Legible) (hb : a.balance.Legible) :
    Applied.shape.decoder.Reads a.toJson a := by
  have hread := Applied.readsAsRead ⟨ht.createdAt, ht.updatedAt⟩ hb.updatedAt
  rwa [Applied.asRead, ht.asRead_eq, hb.asRead_eq] at hread

/-! ## What has been read

What has been read can be written: its times come from a text. -/

theorem Decoder.Yields.check {α β : Type} {d : Decoder α} {P : α → Prop} {g : α → Except Fault β}
    {Q : β → Prop} (h : d.Yields P) (hg : ∀ a, P a → ∀ b, g a = .ok b → Q b) :
    (d.check g).Yields Q := by
  intro node b hb
  obtain ⟨a, ha, hb⟩ := bind_ok hb
  exact hg a (h node a ha) b hb

theorem Decoder.Yields.timestamp :
    Decoder.timestamp.Yields fun t => Timestamp.yearInRange t.date.year = true := by
  refine .check (.trivial _) fun s _ t ht => ?_
  cases hread : Timestamp.readLenient? s with
  | none =>
      rw [hread] at ht
      cases ht
  | some read =>
      rw [hread] at ht
      cases ht
      exact Timestamp.yearInRange_of_readLenient? hread

theorem Balance.yields_timed : Balance.shape.Yields Balance.Timed := by
  unfold shape
  refine .seq (.field .timestamp) <| .left <| .left <| .left <| .left <| .map <| .of_forall ?_
  exact fun _ _ _ _ _ _ hupdated => hupdated

theorem Account.yields_timed : Account.shape.Yields Account.Timed := by
  unfold shape
  refine .seq (.field .timestamp) <| .seq (.field .timestamp) <|
    .seq (.field (.list Balance.yields_timed.decoder)) <| .left <| .left <| .map <| .of_forall ?_
  exact fun _ _ _ _ hbalances _ hcreated _ hupdated => ⟨hbalances, hcreated, hupdated⟩

theorem Transaction.yields_timed : Transaction.shape.Yields Transaction.Timed := by
  unfold shape
  refine .seq (.field .timestamp) <| .seq (.field .timestamp) <| .left <| .left <| .left <|
    .left <| .left <| .left <| .left <| .left <| .left <| .map <| .of_forall ?_
  exact fun _ _ _ _ _ _ _ _ _ _ _ hcreated _ hupdated => ⟨hcreated, hupdated⟩

theorem Applied.yields_timed :
    Applied.shape.Yields fun a => a.transaction.Timed ∧ a.balance.Timed := by
  have htransaction : Transaction.shape.decoder.Yields fun t =>
      ∀ b : Balance, b.Timed → t.Timed ∧ b.Timed :=
    fun node t ht b hb => ⟨Transaction.yields_timed.decoder node t ht, hb⟩
  unfold shape
  exact .seq (.field Balance.yields_timed.decoder) (.map (.field htransaction))

end KeyedLedger
