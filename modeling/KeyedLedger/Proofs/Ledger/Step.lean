import KeyedLedger.Proofs.Ledger.Plan

/-! # What a command does to the ledger

A command that is carried out does one of two things. Opening an account stores the account, its
balances and a receipt; applying a transaction replaces one balance and appends a transaction and a
receipt. Every other end of a command leaves the ledger as it was, whatever the store failed at.
-/

namespace KeyedLedger

namespace Ledger

/-- The ledger with an account opened under a key. -/
def opened (l : Ledger) (a : Account) (key : String) (now : Timestamp) : Ledger where
  accounts := upsert AccountRow.id a.row l.accounts
  balances := a.balances.foldl (fun balances b => upsert Balance.id b balances) l.balances
  transactions := l.transactions
  receipts := l.receipts ++ [⟨key, RequestType.openAccount.code, now, a.toJson.sorted⟩]

/-- The ledger with a transaction posted under a key. -/
def posted (l : Ledger) (a : Applied) (key : String) (now : Timestamp) : Ledger where
  accounts := l.accounts
  balances := upsert Balance.id a.balance l.balances
  transactions := l.transactions ++ [a.transaction]
  receipts := l.receipts ++ [⟨key, RequestType.applyTransaction.code, now, a.toJson.sorted⟩]

theorem insertReceipt_eq (l : Ledger) (r : Receipt) :
    l.insertReceipt r = if l.receipt? r.key = none then
      .ok { l with receipts := l.receipts ++ [r] } else .error (.duplicate r.key) := by
  have hany : (l.receipts.any fun s => s.key = r.key) = true ↔ l.receipt? r.key ≠ none := by
    simp [receipt?]
  rw [insertReceipt]
  by_cases h : l.receipt? r.key = none
  · rw [if_pos h, if_neg (fun hrecorded => hany.mp hrecorded h)]
  · rw [if_neg h, if_pos (hany.mpr h)]

theorem receipt?_eq_none_iff (l : Ledger) (key : String) :
    l.receipt? key = none ↔ ∀ r ∈ l.receipts, r.key ≠ key := by
  simp [receipt?]

theorem insertTransaction_eq (l : Ledger) (t : Transaction) :
    l.insertTransaction t = if ∀ u ∈ l.transactions, u.key ≠ t.key then
      .ok { l with transactions := l.transactions ++ [t] } else .error (.duplicate t.key) := by
  rw [insertTransaction]
  by_cases h : ∀ u ∈ l.transactions, u.key ≠ t.key
  · rw [if_pos h, if_neg (by simpa using h)]
  · rw [if_neg h, if_pos (by simpa using h)]

theorem eq_of_updateBalance {l l' : Ledger} {b : Balance} {expected : Int64}
    (h : l.updateBalance b expected = .ok l') : l' = l.insertBalance b := by
  rw [updateBalance] at h
  split at h
  · split at h
    · cases h
      rfl
    · simp at h
  · simp at h

theorem writes_insertReceipt (l : Ledger) (r : Receipt) :
    Plan.writes (fun l => l.insertReceipt r) l = if l.receipt? r.key = none then
      .ok ((), { l with receipts := l.receipts ++ [r] })
      else .error (.store (.duplicate r.key)) := by
  simp only [Plan.writes, insertReceipt_eq]
  by_cases h : l.receipt? r.key = none
  · simp only [if_pos h]
  · simp only [if_neg h, LedgerError.ofStore]

theorem writes_insertTransaction (l : Ledger) (t : Transaction) :
    Plan.writes (fun l => l.insertTransaction t) l = if ∀ u ∈ l.transactions, u.key ≠ t.key then
      .ok ((), { l with transactions := l.transactions ++ [t] })
      else .error (.store (.duplicate t.key)) := by
  simp only [Plan.writes, insertTransaction_eq]
  by_cases h : ∀ u ∈ l.transactions, u.key ≠ t.key
  · simp only [if_pos h]
  · simp only [if_neg h, LedgerError.ofStore]

theorem writes_insertBalance (balances : List Balance) (l : Ledger) :
    (balances.forM fun b => Plan.writes fun l => .ok (l.insertBalance b)) l =
      .ok ((), { l with
        balances := balances.foldl (fun done b => upsert Balance.id b done) l.balances }) := by
  induction balances generalizing l with
  | nil => rfl
  | cons b rest ih =>
      change (Plan.writes _ >>= fun _ => _) l = _
      rw [Plan.bind_apply]
      exact ih (l.insertBalance b)

end Ledger

/-- Opening an account succeeds unless the domain refuses it or its key is recorded. -/
theorem OpenAccount.plan_apply (c : OpenAccount) (key : String) (now : Timestamp) (draw : Draw)
    (l : Ledger) :
    c.plan key now draw l =
      match Account.opening c.customer c.country c.currencies now draw with
      | .error r => .error (.refused r)
      | .ok a =>
        if l.receipt? key = none then .ok (⟨a, false⟩, l.opened a key now)
        else .error (.store (.duplicate key)) := by
  rw [plan, Plan.bind_apply]
  cases Account.opening c.customer c.country c.currencies now draw with
  | error r => rfl
  | ok a =>
      simp only [Plan.obey, Plan.bind_apply, Ledger.writes_insertBalance,
        Ledger.writes_insertReceipt]
      simp only [Plan.writes]
      have hreceipt : ∀ balances, ({ l.insertAccount a with balances } : Ledger).receipt? key =
          l.receipt? key := fun _ => rfl
      rw [hreceipt]
      by_cases h : l.receipt? key = none
      · rw [if_pos h, if_pos h]
        rfl
      · rw [if_neg h, if_neg h]

/-- A transaction and its receipt are recorded together, unless their key is on either list. -/
theorem Ledger.record_apply {α : Type} (l : Ledger) (t : Transaction) (r : Receipt) (answer : α)
    (hkey : t.key = r.key) :
    (do Plan.writes fun l => l.insertTransaction t
        Plan.writes fun l => l.insertReceipt r
        return answer : Plan α) l =
      if (∀ u ∈ l.transactions, u.key ≠ r.key) ∧ l.receipt? r.key = none then
        .ok (answer, { l with
          transactions := l.transactions ++ [t], receipts := l.receipts ++ [r] })
      else .error (.store (.duplicate r.key)) := by
  simp only [Plan.bind_apply, writes_insertTransaction, writes_insertReceipt, hkey]
  by_cases hposted : ∀ u ∈ l.transactions, u.key ≠ r.key
  · rw [if_pos hposted]
    dsimp only
    -- The receipts are those from before the transaction was appended.
    have hreceipt : ∀ transactions, ({ l with transactions } : Ledger).receipt? r.key =
        l.receipt? r.key := fun _ => rfl
    rw [hreceipt]
    by_cases hrecorded : l.receipt? r.key = none
    · rw [if_pos hrecorded, if_pos ⟨hposted, hrecorded⟩]
      rfl
    · rw [if_neg hrecorded, if_neg fun h => hrecorded h.2]
  · rw [if_neg hposted, if_neg fun h => hposted h.1]

/-- Posting a transaction, look-up by look-up and write by write. -/
theorem ApplyTransaction.posting_apply (c : ApplyTransaction) (amount : Decimal) (key : String)
    (now : Timestamp) (draw : Draw) (l : Ledger) :
    c.posting amount key now draw l =
      match l.account? c.accountId with
      | none => .error (.accountNotFound c.accountId)
      | some _ =>
        match l.balance? c.accountId c.currency with
        | none => .error (.currencyNotFound c.accountId c.currency)
        | some current =>
          match current.move c.direction amount now with
          | .error r => .error (.refused r)
          | .ok balance =>
            match l.updateBalance balance current.version with
            | .error e => .error (.ofStore e)
            | .ok _ =>
              if (∀ t ∈ l.transactions, t.key ≠ key) ∧ l.receipt? key = none then
                .ok (⟨⟨Attempt.record c amount balance key now draw, balance⟩, false⟩,
                  l.posted ⟨Attempt.record c amount balance key now draw, balance⟩ key now)
              else .error (.store (.duplicate key)) := by
  rw [posting]
  simp only [Plan.bind_apply, Plan.reads]
  cases l.account? c.accountId with
  | none => rfl
  | some _ =>
  simp only [Plan.demand]
  cases l.balance? c.accountId c.currency with
  | none => rfl
  | some current =>
  dsimp only
  cases current.move c.direction amount now with
  | error r => rfl
  | ok balance =>
  simp only [Plan.obey, Plan.writes]
  cases hupdate : l.updateBalance balance current.version with
  | error e => rfl
  | ok updated =>
  -- What is left records the transaction on the ledger with the new balance.
  rw [Ledger.eq_of_updateBalance hupdate]
  let applied : Applied := ⟨Attempt.record c amount balance key now draw, balance⟩
  let receipt : Receipt := ⟨key, RequestType.applyTransaction.code, now, applied.toJson.sorted⟩
  have hrecord := (l.insertBalance balance).record_apply applied.transaction receipt
    (⟨applied, false⟩ : Answer Applied) rfl
  simp only [Plan.bind_apply] at hrecord
  exact hrecord

/-- The amount and the description of a transaction are checked before anything else. -/
theorem ApplyTransaction.plan_apply (c : ApplyTransaction)
    (found : Except LedgerError (Option (Answer Applied))) (key : String) (now : Timestamp)
    (draw : Draw) (l : Ledger) :
    c.plan found key now draw l =
      match Money.validate c.amount with
      | .error r => .error (.refused r)
      | .ok amount =>
        match checkDescription c.description with
        | .error r => .error (.refused r)
        | .ok _ => (c.posting amount key now draw).unless found l := by
  rw [plan, Plan.bind_apply]
  cases Money.validate c.amount with
  | error r => rfl
  | ok amount =>
      simp only [Plan.obey, Plan.bind_apply]
      cases checkDescription c.description <;> rfl

/-- The account that a command opens on a ledger that has not recorded its key. -/
structure Ledger.Opens (l : Ledger) (c : OpenAccount) (key : String) (now : Timestamp)
    (draw : Draw) (a : Account) : Prop where
  opening : Account.opening c.customer c.country c.currencies now draw = .ok a
  unrecorded : l.receipt? key = none

/-- The transaction that a command posts, and the balance it leaves, on a ledger that has not
recorded its key. -/
structure Ledger.Posts (l : Ledger) (c : ApplyTransaction) (key : String) (now : Timestamp)
    (draw : Draw) (a : Applied) : Prop where
  described : checkDescription c.description = .ok ()
  account : ∃ owner, l.account? c.accountId = some owner
  moved : ∃ amount current, Money.validate c.amount = .ok amount ∧
    l.balance? c.accountId c.currency = some current ∧
    current.move c.direction amount now = .ok a.balance ∧
    a.transaction = Attempt.record c amount a.balance key now draw
  unposted : ∀ t ∈ l.transactions, t.key ≠ key
  unrecorded : l.receipt? key = none

variable {α : Type}

theorem Plan.unless_ok {found : Except LedgerError (Option (Answer α))} {p : Plan (Answer α)}
    {l l' : Ledger} {a : Answer α} (h : p.unless found l = .ok (a, l')) :
    (found = .ok (some a) ∧ l' = l) ∨ (found = .ok none ∧ p l = .ok (a, l')) := by
  rcases found with e | _ | b
  · simp [Plan.unless] at h
  · exact Or.inr ⟨rfl, h⟩
  · cases h
    exact Or.inl ⟨rfl, rfl⟩

theorem OpenAccount.plan_ok {c : OpenAccount} {key : String} {now : Timestamp} {draw : Draw}
    {l l' : Ledger} {answer : Answer Account} (h : c.plan key now draw l = .ok (answer, l')) :
    ∃ a, answer = ⟨a, false⟩ ∧ l.Opens c key now draw a ∧ l' = l.opened a key now := by
  rw [plan_apply] at h
  cases hopening : Account.opening c.customer c.country c.currencies now draw with
  | error r => simp [hopening] at h
  | ok a =>
      simp only [hopening] at h
      split at h
      next hrecorded =>
        cases h
        exact ⟨a, rfl, ⟨hopening, hrecorded⟩, rfl⟩
      next => simp at h

theorem ApplyTransaction.posting_ok {c : ApplyTransaction} {amount : Decimal} {key : String}
    {now : Timestamp} {draw : Draw} {l l' : Ledger} {answer : Answer Applied}
    (hvalid : Money.validate c.amount = .ok amount)
    (hdescribed : checkDescription c.description = .ok ())
    (h : c.posting amount key now draw l = .ok (answer, l')) :
    ∃ a, answer = ⟨a, false⟩ ∧ l.Posts c key now draw a ∧ l' = l.posted a key now := by
  rw [posting_apply] at h
  cases haccount : l.account? c.accountId with
  | none => simp [haccount] at h
  | some owner =>
  simp only [haccount] at h
  cases hcurrent : l.balance? c.accountId c.currency with
  | none => simp [hcurrent] at h
  | some current =>
  simp only [hcurrent] at h
  cases hmove : current.move c.direction amount now with
  | error r => simp [hmove] at h
  | ok balance =>
  simp only [hmove] at h
  cases hupdate : l.updateBalance balance current.version with
  | error e => simp [hupdate] at h
  | ok updated =>
  simp only [hupdate] at h
  split at h
  next hunused =>
    cases h
    exact ⟨_, rfl, ⟨hdescribed, ⟨owner, haccount⟩, ⟨amount, current, hvalid, hcurrent, hmove, rfl⟩,
      hunused.1, hunused.2⟩, rfl⟩
  next => simp at h

theorem ApplyTransaction.plan_ok {c : ApplyTransaction}
    {found : Except LedgerError (Option (Answer Applied))} {key : String} {now : Timestamp}
    {draw : Draw} {l l' : Ledger} {answer : Answer Applied}
    (h : c.plan found key now draw l = .ok (answer, l')) :
    (found = .ok (some answer) ∧ l' = l) ∨
      ∃ a, answer = ⟨a, false⟩ ∧ l.Posts c key now draw a ∧ l' = l.posted a key now := by
  rw [plan_apply] at h
  cases hvalid : Money.validate c.amount with
  | error r => simp [hvalid] at h
  | ok amount =>
  simp only [hvalid] at h
  cases hdescribed : checkDescription c.description with
  | error r => simp [hdescribed] at h
  | ok _ =>
  simp only [hdescribed] at h
  rcases Plan.unless_ok h with hfound | ⟨-, hposting⟩
  · exact Or.inl hfound
  · exact Or.inr (posting_ok hvalid hdescribed hposting)

/-- A success that gives way to a recorded result is that result, and changes nothing. -/
theorem Plan.orRecorded_ok {planned : Except LedgerError (Answer α × Ledger)} {key : String}
    {type : RequestType} {shape : Shape α} {l l' : Ledger} {a : Answer α}
    (h : Plan.orRecorded planned key type shape l = .ok (a, l')) :
    planned = .ok (a, l') ∨ (l.recorded key type shape = .ok (some a) ∧ l' = l) := by
  unfold Plan.orRecorded at h
  split at h
  · rcases Plan.unless_ok h with hfound | ⟨-, hnone⟩
    · exact Or.inr hfound
    · simp [Plan.demand] at hnone
  · exact Or.inl h

/-- A command leaves the ledger as it is and answers with a recorded result if with any, or does
what it does when it is carried out. -/
theorem Attempt.EndsOrQuiet.ledger {planned : Except LedgerError (Answer α × Ledger)} {key : String}
    {type : RequestType} {shape : Shape α} {s : Store} {r : Except LedgerError (Answer α)}
    {after : Ledger} (h : EndsOrQuiet planned key type shape s r after) (Does : α → Ledger → Prop)
    (hplanned : ∀ answer l, planned = .ok (answer, l) →
      (s.found key type shape = .ok (some answer) ∧ l = s.ledger) ∨
        ∃ a, answer = ⟨a, false⟩ ∧ Does a l) :
    (after = s.ledger ∧ ∀ a, r = .ok a → s.ledger.recorded key type shape = .ok (some a)) ∨
      ∃ a, r = .ok ⟨a, false⟩ ∧ Does a after := by
  rcases h with ⟨-, hquiet⟩ | hends
  · exact Or.inl hquiet
  rcases hplan : Plan.orRecorded planned key type shape s.ledger with e | ⟨answer, l⟩ <;>
    rw [hplan] at hends
  · exact Or.inl ⟨hends.2, by simp [hends.1]⟩
  obtain ⟨rfl, rfl⟩ := hends
  have hanswer : s.ledger.recorded key type shape = .ok (some answer) →
      ∀ a, (Except.ok answer : Except LedgerError _) = .ok a →
        s.ledger.recorded key type shape = .ok (some a) := by
    rintro hrecorded a ⟨⟩
    exact hrecorded
  rcases Plan.orRecorded_ok hplan with hplan | ⟨hfound, rfl⟩
  · rcases hplanned answer after hplan with ⟨hfound, rfl⟩ | ⟨a, rfl, hdoes⟩
    · exact Or.inl ⟨rfl, hanswer (Store.recorded_of_found hfound)⟩
    · exact Or.inr ⟨a, rfl, hdoes⟩
  · exact Or.inl ⟨rfl, hanswer hfound⟩

namespace Store

/-- A command to open an account opens it, or leaves the ledger as it was and answers with the
recorded result if with any. -/
theorem openAccount_ledger (s : Store) (c : OpenAccount) (key : String) (now : Timestamp)
    (draw : Draw) :
    ((s.openAccount c key now draw).2.ledger = s.ledger ∧
        ∀ a, (s.openAccount c key now draw).1 = .ok a →
          s.ledger.recorded key .openAccount Account.shape = .ok (some a)) ∨
      ∃ a, (s.openAccount c key now draw).1 = .ok ⟨a, false⟩ ∧ s.ledger.Opens c key now draw a ∧
        (s.openAccount c key now draw).2.ledger = s.ledger.opened a key now := by
  refine (s.openAccount_cases c key now draw).ledger
    (fun a l => s.ledger.Opens c key now draw a ∧ l = s.ledger.opened a key now) ?_
  intro answer l hplan
  rcases Plan.unless_ok hplan with hfound | ⟨-, hplan⟩
  · exact Or.inl hfound
  · exact Or.inr (OpenAccount.plan_ok hplan)

/-- A command to apply a transaction posts it, or leaves the ledger as it was and answers with the
recorded result if with any. -/
theorem applyTransaction_ledger (s : Store) (c : ApplyTransaction) (key : String) (now : Timestamp)
    (draw : Draw) :
    ((s.applyTransaction c key now draw).2.ledger = s.ledger ∧
        ∀ a, (s.applyTransaction c key now draw).1 = .ok a →
          s.ledger.recorded key .applyTransaction Applied.shape = .ok (some a)) ∨
      ∃ a, (s.applyTransaction c key now draw).1 = .ok ⟨a, false⟩ ∧
        s.ledger.Posts c key now draw a ∧
        (s.applyTransaction c key now draw).2.ledger = s.ledger.posted a key now := by
  refine (s.applyTransaction_cases c key now draw).ledger
    (fun a l => s.ledger.Posts c key now draw a ∧ l = s.ledger.posted a key now) ?_
  intro answer l hplan
  exact ApplyTransaction.plan_ok hplan

end Store

end KeyedLedger
