import KeyedLedger.Proofs.Ledger.Provenance
import KeyedLedger.Proofs.Ledger.Refusals

/-! # Refusals that no balance takes away

A transaction may be refused for what it says, or for a currency that its account is not kept in.
Its amount and its description stay what they are, and an account gets no balances after it has been
opened. So a transaction that has been refused for one of these reasons is not carried out later
either, whatever happens in between (`LedgerError.Lasting.declines`).
-/

namespace KeyedLedger

/-- A refusal for the amount, the description or the currency of a transaction. -/
inductive LedgerError.Lasting : LedgerError → Prop
  | invalidAmount (amount : Decimal) : Lasting (.refused (.invalidAmount amount))
  | amountTooLarge (amount : Decimal) : Lasting (.refused (.amountTooLarge amount))
  | descriptionTooLong : Lasting (.refused .descriptionTooLong)
  | currencyNotFound (account : Identifier) (currency : Currency) :
    Lasting (.currencyNotFound account currency)

namespace Ledger

variable {l : Ledger} {account : Identifier} {currency : Currency} {key : String} {now : Timestamp}
  {draw : Draw}

/-- There is an account that is not kept in a currency. -/
structure Lacks (l : Ledger) (account : Identifier) (currency : Currency) : Prop where
  known : ∃ r ∈ l.accounts, r.id = account
  lacking : ∀ b ∈ l.balances, b.accountId = account → b.currency ≠ currency

theorem lacks_of_lookup {owner : Account} (haccount : l.account? account = some owner)
    (hbalance : l.balance? account currency = none) : l.Lacks account currency where
  known := by
    obtain ⟨r, hr, -⟩ := Option.map_eq_some_iff.mp haccount
    exact ⟨r, List.mem_of_find?_eq_some hr, by simpa using List.find?_some hr⟩
  lacking b hb haccount hcurrency := by
    have hother := List.find?_eq_none.mp hbalance b hb
    simp [haccount, hcurrency] at hother

theorem Lacks.balance? (h : l.Lacks account currency) : l.balance? account currency = none := by
  rw [Ledger.balance?, List.find?_eq_none]
  intro b hb hsame
  obtain ⟨haccount, hcurrency⟩ := of_decide_eq_true hsame
  exact h.lacking b hb haccount hcurrency

/-- A new account has an identifier of its own. -/
theorem Lacks.opened {c : OpenAccount} {a : Account} (h : l.Lacks account currency)
    (hopens : l.Opens c key now draw a) (hfresh : draw.Fresh l) :
    (l.opened a key now).Lacks account currency := by
  obtain ⟨r, hr, hid⟩ := h.known
  refine ⟨⟨r, ?_, hid⟩, fun b hb haccount => ?_⟩
  · rw [hopens.accounts_of_fresh hfresh]
    exact List.mem_append_left _ hr
  · rw [hopens.balances_of_fresh hfresh] at hb
    rcases List.mem_append.mp hb with hb | hb
    · exact h.lacking b hb haccount
    · obtain ⟨currencies, -, rfl⟩ := Account.eq_of_opening hopens.opening
      obtain ⟨k, -, rfl⟩ := List.mem_map.mp hb
      exact absurd (hid.trans haccount.symm) (hfresh.account r hr)

/-- A balance that is moved stays that of its account and its currency. -/
theorem Lacks.posted {c : ApplyTransaction} {a : Applied} (h : l.Lacks account currency)
    (hposts : l.Posts c key now draw a) : (l.posted a key now).Lacks account currency := by
  refine ⟨h.known, fun b hb => ?_⟩
  rcases mem_upsert hb with rfl | hb
  · obtain ⟨amount, current, -, hcurrent, hmove, -⟩ := hposts.moved
    obtain ⟨available, hbalance⟩ := Balance.eq_of_move hmove
    rw [hbalance]
    exact h.lacking current (List.mem_of_find?_eq_some hcurrent)
  · exact h.lacking b hb

theorem Lacks.after {later : List Instruction} (h : l.Lacks account currency)
    (hfresh : l.DrawsFresh later) : (l.after later).Lacks account currency :=
  after_induction (P := fun l => l.Lacks account currency) hfresh h
    (fun _ _ _ _ _ hlacks hdraw hopens => hlacks.opened hopens hdraw)
    fun _ _ _ _ _ hlacks _ hposts => hlacks.posted hposts

/-- No instruction of a history carries a command out. -/
def Declines (l : Ledger) (history : List Instruction) (c : Command) : Prop :=
  ∀ before i after, history = before ++ i :: after → i.command = c →
    ((l.after before).serve i).1.effect? = none

theorem Declines.of_append {first second : List Instruction} {c : Command}
    (h : l.Declines (first ++ second) c) : (l.after first).Declines second c := by
  rintro before i after rfl hcommand
  rw [← after_append]
  exact h (first ++ before) i after (by simp) hcommand

end Ledger

/-- What keeps a transaction from being carried out on a ledger and on every later one. -/
inductive ApplyTransaction.Barred (c : ApplyTransaction) (l : Ledger) : Prop
  | amount {r : Refusal} (h : Money.validate c.amount = .error r)
  | description {r : Refusal} (h : checkDescription c.description = .error r)
  | currency (h : l.Lacks c.accountId c.currency)

namespace ApplyTransaction

variable {c : ApplyTransaction} {l : Ledger}

theorem Barred.after {later : List Instruction} (h : c.Barred l) (hfresh : l.DrawsFresh later) :
    c.Barred (l.after later) := by
  cases h with
  | amount h => exact .amount h
  | description h => exact .description h
  | currency h => exact .currency (h.after hfresh)

theorem Barred.not_posts {key : String} {now : Timestamp} {draw : Draw} {a : Applied}
    (h : c.Barred l) : ¬ l.Posts c key now draw a := by
  intro hposts
  obtain ⟨amount, current, hamount, hcurrent, -, -⟩ := hposts.moved
  cases h with
  | amount h => cases h.symm.trans hamount
  | description h => cases h.symm.trans hposts.described
  | currency h => cases h.balance?.symm.trans hcurrent

/-- A lasting refusal tells that the transaction is barred. -/
theorem RefusedFor.barred {key : String} {e : LedgerError} (h : c.RefusedFor l key e)
    (he : e.Lasting) : c.Barred l := by
  cases h with
  | amount h => exact .amount h
  | description h => exact .description h
  | currency haccount hbalance => exact .currency (Ledger.lacks_of_lookup haccount hbalance)
  | balance _ hmove => rcases Balance.move_error hmove with rfl | rfl <;> cases he
  | taken | account => cases he
  | store e => cases e <;> cases he

/-- A transaction that is barred is not carried out. -/
theorem Barred.declines {history : List Instruction} (h : c.Barred l)
    (hfresh : l.DrawsFresh history) : l.Declines history (.applyTransaction c) := by
  rintro before i after rfl hcommand
  have hbarred : c.Barred (l.after before) := h.after (Ledger.drawsFresh_append.mp hfresh).1
  rcases Ledger.apply_cases (l := l.after before) hcommand with ⟨hnone, -⟩ | ⟨a, -, hposts, -⟩
  · exact hnone
  · exact absurd hposts hbarred.not_posts

end ApplyTransaction

/-- A transaction that has been refused for a lasting reason is not carried out from then on. -/
theorem LedgerError.Lasting.declines {l : Ledger} {i : Instruction} {c : ApplyTransaction}
    {e : LedgerError} {later : List Instruction} (he : e.Lasting)
    (hcommand : i.command = .applyTransaction c) (hrefused : (l.serve i).1.outcome = .error e)
    (hfresh : l.DrawsFresh later) : l.Declines later i.command := by
  rcases i with ⟨command, key, now, draw, d⟩
  cases hcommand
  have hanswer : ((l.under d).applyTransaction c key now draw).1 = .error e := by
    rw [Ledger.serve_applyTransaction] at hrefused
    rcases hresult : ((l.under d).applyTransaction c key now draw).1 with e' | a <;>
      rw [hresult] at hrefused <;> cases hrefused
    rfl
  exact ((Store.refusedFor_of_error hanswer).barred he).declines hfresh

-- a credit in a currency that the account is not kept in
example : ((({} : Ledger).after [Sample.opening]).serve
    ⟨.applyTransaction ⟨Sample.identifier 0, Money.ofCents 10000, .usd, .credit, "salary"⟩, "fill",
      .start2025, Sample.draw 6, .none⟩).1.outcome =
      .error (.currencyNotFound (Sample.identifier 0) .usd) :=
  rfl

end KeyedLedger
