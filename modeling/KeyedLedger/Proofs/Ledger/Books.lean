import KeyedLedger.Proofs.Ledger.Replay

/-! # The ledger as it is specified

The books say what a ledger is for: which result stands under a key, and how many cents an account
has in a currency. Commands are carried out on the books by integer arithmetic, with no store, no
drafts, no written results and no rows to be found; a command is answered by the first verdict that
applies.

The books of a ledger are read off its rows. `Ledger.Documented` is what makes them complete: every
receipt can be read, and every transaction has one.
-/

namespace KeyedLedger

open Money

/-- What an account has in a currency. -/
structure Holding where
  balance : Identifier
  cents : Nat
  version : Int64

/-- The results under their keys, and the holdings of the accounts. -/
structure Books where
  result : String → Option Result
  holding : Identifier → Currency → Option Holding

namespace Books

/-- The account that is opened, and nothing in each of its currencies. -/
def opened (b : Books) (key : String) (a : Account) (currencies : List Currency) (draw : Draw) :
    Books where
  result := Function.update b.result key (some (.opened a))
  holding account currency :=
    if account = a.id ∧ currency ∈ currencies then some ⟨draw.balance currency, 0, 1⟩
    else b.holding account currency

/-- The transaction that is applied, and what it leaves of its holding. -/
def applied (b : Books) (key : String) (a : Applied) (holding : Holding) : Books where
  result := Function.update b.result key (some (.applied a))
  holding account currency :=
    if account = a.transaction.accountId ∧ currency = a.transaction.currency then some holding
    else b.holding account currency

/-- Opens an account. -/
def openAccount (b : Books) (c : OpenAccount) (key : String) (now : Timestamp) (draw : Draw) :
    Except LedgerError (Answer Account) × Books :=
  match b.result key with
  | some (.opened a) => (.ok ⟨a, true⟩, b)
  | some (.applied _) => (.error (.keyTaken key RequestType.applyTransaction.code), b)
  | none =>
    if c.currencies = [] then (.error (.refused .noCurrencies), b)
    else match Currency.all.find? fun k => 1 < c.currencies.count k with
      | some k => (.error (.refused (.duplicateCurrency k)), b)
      | none =>
        let currencies := Currency.all.filter fun k => k ∈ c.currencies
        let balances := currencies.map fun k => Balance.opened (draw.balance k) draw.account k now
        let a : Account := ⟨draw.account, c.customer, c.country, balances, now, now⟩
        (.ok ⟨a, false⟩, b.opened key a c.currencies draw)

/-- Applies a transaction of a number of cents to a holding. -/
def move (b : Books) (c : ApplyTransaction) (held : Holding) (amount : Nat) (key : String)
    (now : Timestamp) (draw : Draw) : Except LedgerError (Answer Applied) × Books :=
  match c.direction.moved? held.cents amount with
  | none =>
    (.error (.refused (c.direction.refusal (ofCents held.cents) (ofCents amount))), b)
  | some after =>
    let balance : Balance :=
      ⟨held.balance, c.accountId, c.currency, ofCents after, held.version + 1, now⟩
    let a : Applied := ⟨Attempt.record c (ofCents amount) balance key now draw, balance⟩
    (.ok ⟨a, false⟩, b.applied key a ⟨held.balance, after, held.version + 1⟩)

/-- Applies a transaction of a number of cents to an account. -/
def post (b : Books) (c : ApplyTransaction) (amount : Nat) (key : String) (now : Timestamp)
    (draw : Draw) : Except LedgerError (Answer Applied) × Books :=
  if ∀ k ∈ Currency.all, (b.holding c.accountId k).isNone then
    (.error (.accountNotFound c.accountId), b)
  else match b.holding c.accountId c.currency with
    | none => (.error (.currencyNotFound c.accountId c.currency), b)
    | some held => b.move c held amount key now draw

/-- Applies a transaction. -/
def applyTransaction (b : Books) (c : ApplyTransaction) (key : String) (now : Timestamp)
    (draw : Draw) : Except LedgerError (Answer Applied) × Books :=
  match c.amount.cents? with
  | none => (.error (.refused (.invalidAmount c.amount)), b)
  | some amount =>
    if maxCents < amount then (.error (.refused (.amountTooLarge c.amount)), b)
    else if 255 < c.description.length then (.error (.refused .descriptionTooLong), b)
    else match b.result key with
      | some (.applied a) => (.ok ⟨a, true⟩, b)
      | some (.opened _) => (.error (.keyTaken key RequestType.openAccount.code), b)
      | none => b.post c amount key now draw

/-- Carries out an instruction. Nothing goes wrong. -/
def serve (b : Books) (i : Instruction) : Report × Books :=
  match i.command with
  | .openAccount c =>
    let (result, b) := b.openAccount c i.key i.now i.draw
    (.opened result, b)
  | .applyTransaction c =>
    let (result, b) := b.applyTransaction c i.key i.now i.draw
    (.applied result, b)

/-- Books in which nothing is entered. -/
def empty : Books where
  result _ := none
  holding _ _ := none

/-- What the instructions of a history are answered. -/
def reports (b : Books) : List Instruction → List Report
  | [] => []
  | i :: rest => (b.serve i).1 :: (b.serve i).2.reports rest

end Books

/-! ## The books of a ledger -/

/-- The result that a receipt keeps, if it can be read. -/
def Receipt.value? (r : Receipt) : Option Result :=
  if r.requestType = RequestType.openAccount.code then
    (Account.shape.decoder.ofJson r.result).toOption.map .opened
  else if r.requestType = RequestType.applyTransaction.code then
    (Applied.shape.decoder.ofJson r.result).toOption.map .applied
  else none

/-- What a balance holds. -/
def Balance.holding (b : Balance) : Holding :=
  ⟨b.id, (b.available.toRat * 100).num.toNat, b.version⟩

namespace Ledger

/-- The books of a ledger. -/
def books (l : Ledger) : Books where
  result key := (l.receipt? key).bind Receipt.value?
  holding account currency := (l.balance? account currency).map Balance.holding

/-- Every receipt of a ledger can be read, and every transaction has one. -/
structure Documented (l : Ledger) : Prop where
  legible : ∀ r ∈ l.receipts, ∃ v, r.value? = some v
  receipted : ∀ t ∈ l.transactions, ∃ r ∈ l.receipts, r.key = t.key

end Ledger

/-! ## Receipts -/

theorem Receipt.value?_opened {a : Account} (h : a.Legible) (key : String) (now : Timestamp) :
    (⟨key, RequestType.openAccount.code, now, a.toJson.sorted⟩ : Receipt).value? =
      some (.opened a) := by
  have hread : Account.shape.decoder.ofJson a.toJson.sorted = .ok a := h.reads.sorted
  rw [value?, if_pos rfl, hread]
  rfl

theorem Receipt.value?_applied {a : Applied} (ht : a.transaction.Legible) (hb : a.balance.Legible)
    (key : String) (now : Timestamp) :
    (⟨key, RequestType.applyTransaction.code, now, a.toJson.sorted⟩ : Receipt).value? =
      some (.applied a) := by
  have hread : Applied.shape.decoder.ofJson a.toJson.sorted = .ok a :=
    (Applied.reads ht hb).sorted
  rw [value?, if_neg (by simp [RequestType.code]), if_pos rfl, hread]
  rfl

/-- What a receipt that can be read is: its type tells the type of its result. -/
theorem Receipt.eq_of_value? {r : Receipt} {v : Result} (h : r.value? = some v) :
    r.requestType = v.type.code ∧ match v with
      | .opened a => Account.shape.decoder.ofJson r.result = .ok a
      | .applied a => Applied.shape.decoder.ofJson r.result = .ok a := by
  rw [value?] at h
  split at h
  next htype =>
    cases hread : Account.shape.decoder.ofJson r.result with
    | error e => simp [hread, Except.toOption] at h
    | ok a =>
        rw [hread] at h
        cases h
        exact ⟨htype, rfl⟩
  split at h
  next htype =>
    cases hread : Applied.shape.decoder.ofJson r.result with
    | error e => simp [hread, Except.toOption] at h
    | ok a =>
        rw [hread] at h
        cases h
        exact ⟨htype, rfl⟩
  next => simp at h

namespace Ledger

variable {l : Ledger} {key : String} {now : Timestamp} {draw : Draw}

theorem documented_empty : ({} : Ledger).Documented :=
  ⟨by simp, by simp⟩

theorem Documented.opened {c : OpenAccount} {a : Account} (h : l.Documented)
    (hopens : l.Opens c key now draw a) (hnow : Timestamp.yearInRange now.date.year = true) :
    (l.opened a key now).Documented := by
  refine ⟨fun r hr => ?_, fun t ht => ?_⟩
  · rcases List.mem_append.mp hr with hr | hr
    · exact h.legible r hr
    · rw [List.mem_singleton.mp hr]
      exact ⟨_, Receipt.value?_opened (Account.legible_of_opening hopens.opening hnow) _ _⟩
  · obtain ⟨r, hr, hkey⟩ := h.receipted t ht
    exact ⟨r, List.mem_append_left _ hr, hkey⟩

theorem Documented.posted {c : ApplyTransaction} {a : Applied} (h : l.Documented)
    (hcents : l.InCents) (hposts : l.Posts c key now draw a)
    (hnow : Timestamp.yearInRange now.date.year = true) : (l.posted a key now).Documented := by
  obtain ⟨current, available, amount, after, hmoves⟩ := hcents.moves hposts
  obtain ⟨hlegible, hbalance⟩ := hmoves.legible hnow
  refine ⟨fun r hr => ?_, fun t ht => ?_⟩
  · rcases List.mem_append.mp hr with hr | hr
    · exact h.legible r hr
    · rw [List.mem_singleton.mp hr]
      exact ⟨_, Receipt.value?_applied hlegible hbalance _ _⟩
  · rcases List.mem_append.mp ht with ht | ht
    · obtain ⟨r, hr, hkey⟩ := h.receipted t ht
      exact ⟨r, List.mem_append_left _ hr, hkey⟩
    · refine ⟨_, List.mem_append_right _ List.mem_cons_self, ?_⟩
      rw [List.mem_singleton.mp ht, hmoves.transaction]
      rfl

theorem Documented.serve {i : Instruction} (h : l.Documented) (hcents : l.InCents)
    (hnow : Timestamp.yearInRange i.now.date.year = true) : (l.serve i).2.Documented := by
  apply serve_induction (P := Documented) h
  · intro c a hopens
    exact h.opened hopens hnow
  · intro c a hposts
    exact h.posted hcents hposts hnow

theorem Documented.after {history : List Instruction} (h : l.Documented) (hcents : l.InCents)
    (hclock : ∀ i ∈ history, Timestamp.yearInRange i.now.date.year = true) :
    (l.after history).Documented := by
  induction history generalizing l with
  | nil => exact h
  | cons i rest ih =>
      obtain ⟨hnow, hrest⟩ := List.forall_mem_cons.mp hclock
      exact ih (h.serve hcents hnow) (hcents.serve i) hrest

theorem documented_after {history : List Instruction}
    (hclock : ∀ i ∈ history, Timestamp.yearInRange i.now.date.year = true) :
    (({} : Ledger).after history).Documented :=
  documented_empty.after (inCents_after []) hclock

theorem Sound.documented_after {history : List Instruction} (hsound : l.Sound)
    (hdocumented : l.Documented) (hfresh : l.DrawsFresh history)
    (hclock : ∀ i ∈ history, Timestamp.yearInRange i.now.date.year = true) :
    (l.after history).Sound ∧ (l.after history).Documented :=
  ⟨hsound.after hfresh, hdocumented.after hsound.cents hclock⟩

/-- A key that has no receipt has no transaction either. -/
theorem Documented.unposted (h : l.Documented) (hnone : l.receipt? key = none) :
    ∀ t ∈ l.transactions, t.key ≠ key := by
  intro t ht hkey
  obtain ⟨r, hr, hsame⟩ := h.receipted t ht
  exact (receipt?_eq_none_iff l key).mp hnone r hr (hsame.trans hkey)

theorem Documented.exists_value (h : l.Documented) {r : Receipt} (hr : l.receipt? key = some r) :
    ∃ v, r.value? = some v ∧ l.books.result key = some v := by
  obtain ⟨v, hv⟩ := h.legible r (List.mem_of_find?_eq_some hr)
  refine ⟨v, hv, ?_⟩
  change (l.receipt? key).bind Receipt.value? = some v
  rw [hr]
  exact hv

theorem Documented.result_eq_none_iff (h : l.Documented) :
    l.books.result key = none ↔ l.receipt? key = none := by
  cases hr : l.receipt? key with
  | none => simp [books, hr]
  | some r =>
      obtain ⟨v, -, hv⟩ := h.exists_value hr
      simp [hv]

/-- A request for an account is answered from the books. -/
theorem Documented.recorded_account (h : l.Documented) (key : String) :
    l.recorded key .openAccount Account.shape = match l.books.result key with
      | none => .ok none
      | some (.opened a) => .ok (some ⟨a, true⟩)
      | some (.applied _) => .error (.keyTaken key RequestType.applyTransaction.code) := by
  cases hr : l.receipt? key with
  | none => rw [h.result_eq_none_iff.mpr hr, recorded, hr]
  | some r =>
      obtain ⟨v, hv, hresult⟩ := h.exists_value hr
      obtain ⟨htype, hread⟩ := Receipt.eq_of_value? hv
      rw [hresult]
      cases v with
      | opened a => exact recorded_of_receipt hr htype hread
      | applied a => exact recorded_of_other _ hr htype (by simp)

/-- A request for a transaction is answered from the books. -/
theorem Documented.recorded_applied (h : l.Documented) (key : String) :
    l.recorded key .applyTransaction Applied.shape = match l.books.result key with
      | none => .ok none
      | some (.applied a) => .ok (some ⟨a, true⟩)
      | some (.opened _) => .error (.keyTaken key RequestType.openAccount.code) := by
  cases hr : l.receipt? key with
  | none => rw [h.result_eq_none_iff.mpr hr, recorded, hr]
  | some r =>
      obtain ⟨v, hv, hresult⟩ := h.exists_value hr
      obtain ⟨htype, hread⟩ := Receipt.eq_of_value? hv
      rw [hresult]
      cases v with
      | applied a => exact recorded_of_receipt hr htype hread
      | opened a => exact recorded_of_other _ hr htype (by simp)

end Ledger

end KeyedLedger
