import Mathlib.Data.List.Find
import KeyedLedger.Proofs.Ledger.Books

/-! # The ledger keeps its books

On a ledger that a history has left, an undisturbed instruction does to the rows what the
specification does to the books, and is answered with the verdict of the specification. In
particular no update of a balance is late, no key is reported as a duplicate and no recorded result
fails to be read. Identifiers are drawn fresh, and the clock stays in the range of the calendar, so
that it reads back.
-/

namespace KeyedLedger

open Money

theorem Balance.holding_of_cents {b : Balance} {n : Nat} (hb : b.available = ofCents n)
    (hn : n ≤ maxCents) : b.holding = ⟨b.id, n, b.version⟩ := by
  have hroom : n < Decimal.capacity := lt_of_le_of_lt hn maxCents_lt_capacity
  have hcents : (ofCents n).toRat * 100 = n := by
    rw [toRat_ofCents hroom]
    ring
  rw [holding, hb, hcents, Rat.num_natCast, Int.toNat_natCast]

namespace Ledger

variable {l : Ledger} {key : String} {now : Timestamp} {draw : Draw}

theorem books_result_append {l' : Ledger} {r : Receipt} {v : Result}
    (hnone : l.receipt? r.key = none) (hvalue : r.value? = some v)
    (hreceipts : l'.receipts = l.receipts ++ [r]) :
    l'.books.result = Function.update l.books.result r.key (some v) := by
  funext key
  change (l'.receipt? key).bind Receipt.value? = _
  rw [receipt?_append key hreceipts]
  by_cases hkey : key = r.key
  · rw [hkey, hnone, Option.none_or, if_pos rfl, Function.update_self]
    exact hvalue
  · rw [if_neg (Ne.symm hkey), Option.or_none, Function.update_of_ne hkey]
    rfl

/-! ## Opening an account -/

section Opening

variable {c : OpenAccount} {a : Account}

theorem Opens.find?_balances (hopens : l.Opens c key now draw a) (account : Identifier)
    (currency : Currency) :
    (a.balances.find? fun b => b.accountId = account ∧ b.currency = currency) =
      if account = a.id ∧ currency ∈ c.currencies then
        some (Balance.opened (draw.balance currency) draw.account currency now) else none := by
  obtain ⟨currencies, hdistinct, rfl⟩ := Account.eq_of_opening hopens.opening
  have hmem : currency ∈ currencies ↔ currency ∈ c.currencies := by
    rw [Currency.eq_of_distinct hdistinct, List.mem_filter]
    simp [currency.mem_all]
  rw [List.find?_map]
  split
  next h =>
    obtain ⟨rfl, hcurrency⟩ := h
    cases hfind : currencies.find? _ with
    | none =>
        have hnone := List.find?_eq_none.mp hfind currency (hmem.mpr hcurrency)
        simp [Balance.opened] at hnone
    | some k =>
        have hsome := List.find?_some hfind
        have hk : k = currency := by simpa [Balance.opened] using hsome
        rw [hk, Option.map_some]
  next h =>
    rw [Option.map_eq_none_iff, List.find?_eq_none]
    intro k hk hfound
    have hsame : draw.account = account ∧ k = currency := by
      simpa [Balance.opened] using hfound
    exact h ⟨hsame.1.symm, hmem.mp (hsame.2 ▸ hk)⟩

theorem Sound.balance?_of_new (hsound : l.Sound) (hfresh : draw.Fresh l) (currency : Currency) :
    l.balance? draw.account currency = none := by
  rw [balance?, List.find?_eq_none]
  intro b hb hfound
  obtain ⟨r, hr, howner⟩ := hsound.owner b hb
  have haccount : b.accountId = draw.account ∧ b.currency = currency := by simpa using hfound
  exact hfresh.account r hr (howner.trans haccount.1)

/-- Opening an account enters it in the books. -/
theorem Sound.books_opened (hsound : l.Sound) (hopens : l.Opens c key now draw a)
    (hfresh : draw.Fresh l) (hnow : Timestamp.yearInRange now.date.year = true) :
    (l.opened a key now).books = l.books.opened key a c.currencies draw := by
  have hid : a.id = draw.account := by
    obtain ⟨currencies, -, rfl⟩ := Account.eq_of_opening hopens.opening
    rfl
  apply congrArg₂ Books.mk
  · exact books_result_append hopens.unrecorded
      (Receipt.value?_opened (Account.legible_of_opening hopens.opening hnow) _ _) rfl
  · funext account currency
    rw [books, balance?, hopens.balances_of_fresh hfresh, List.find?_append, hopens.find?_balances]
    split
    next h =>
      have hnone := hsound.balance?_of_new hfresh currency
      rw [← hid, ← h.1, balance?] at hnone
      rw [hnone, Option.none_or, Option.map_some]
      exact congrArg some (Balance.holding_of_cents zero_eq_ofCents (Nat.zero_le _))
    next h =>
      rw [Option.or_none]
      rfl

end Opening

/-! ## Posting a transaction -/

section Posting

variable {c : ApplyTransaction} {a : Applied} {current : Balance} {available amount after : Nat}

theorem Sound.balance?_posted_eq_map (hsound : l.Sound)
    (hmoves : l.Moves c key now draw a current available amount after) (account : Identifier)
    (currency : Currency) :
    (l.posted a key now).balance? account currency =
      (l.balance? account currency).map fun b => if b.id = a.balance.id then a.balance else b := by
  rw [balance?, balance?, hsound.balances_posted hmoves, List.find?_map]
  refine congrArg _ (List.find?_congr fun b hb => ?_)
  simp only [Function.comp]
  split
  next hid =>
    -- The balance that takes its place is looked up under the same account and currency.
    rw [hsound.eq_current hmoves hb hid, hmoves.balance]
    rfl
  · rfl

theorem Sound.balance?_posted (hsound : l.Sound)
    (hmoves : l.Moves c key now draw a current available amount after) (account : Identifier)
    (currency : Currency) :
    (l.posted a key now).balance? account currency =
      if account = c.accountId ∧ currency = c.currency then some a.balance
      else l.balance? account currency := by
  rw [hsound.balance?_posted_eq_map hmoves]
  split
  next h =>
    obtain ⟨rfl, rfl⟩ := h
    rw [← hmoves.account, ← hmoves.currency, hsound.balance?_of_stored hmoves.stored,
      Option.map_some, if_pos hmoves.id_eq.symm]
  next h =>
    cases hfound : l.balance? account currency with
    | none => rfl
    | some b =>
        obtain ⟨hb, haccount, hcurrency⟩ := stored_of_balance? hfound
        have hother : b.id ≠ a.balance.id := by
          intro hid
          rw [hsound.eq_current hmoves hb hid] at haccount hcurrency
          exact h ⟨haccount.symm.trans hmoves.account, hcurrency.symm.trans hmoves.currency⟩
        rw [Option.map_some, if_neg hother]

/-- Posting a transaction enters it in the books. -/
theorem Sound.books_posted (hsound : l.Sound) (hnone : l.receipt? key = none)
    (hmoves : l.Moves c key now draw a current available amount after)
    (hnow : Timestamp.yearInRange now.date.year = true) :
    (l.posted a key now).books =
      l.books.applied key a ⟨current.id, after, current.version + 1⟩ := by
  obtain ⟨hlegible, hbalance⟩ := hmoves.legible hnow
  have haccount : a.transaction.accountId = c.accountId := by rw [hmoves.transaction]; rfl
  have hcurrency : a.transaction.currency = c.currency := by rw [hmoves.transaction]; rfl
  apply congrArg₂ Books.mk
  · exact books_result_append hnone (Receipt.value?_applied hlegible hbalance _ _) rfl
  · funext account currency
    rw [books, hsound.balance?_posted hmoves, haccount, hcurrency]
    split
    next h =>
      rw [Option.map_some, hmoves.balance]
      exact congrArg some (Balance.holding_of_cents rfl hmoves.after_le)
    · rfl

end Posting

/-! ## Serving -/

variable {α : Type}

/-- An account is there as soon as it holds something. -/
theorem Sound.account?_eq_none_iff (hsound : l.Sound) (id : Identifier) :
    l.account? id = none ↔ ∀ k ∈ Currency.all, (l.books.holding id k).isNone = true := by
  constructor
  · intro hnone k _
    cases hfound : l.balance? id k with
    | none => simp [books, hfound]
    | some b =>
        obtain ⟨hb, rfl, -⟩ := stored_of_balance? hfound
        obtain ⟨r, hr, howner⟩ := hsound.owner b hb
        obtain ⟨owner, haccount⟩ := account?_of_mem hr
        rw [howner, hnone] at haccount
        cases haccount
  · intro hnone
    cases haccount : l.account? id with
    | none => rfl
    | some owner =>
        obtain ⟨r, hfound, -⟩ := Option.map_eq_some_iff.mp haccount
        have hid : r.id = id := by simpa using List.find?_some hfound
        obtain ⟨b, hb, howner⟩ := hsound.holds r (List.mem_of_find?_eq_some hfound)
        obtain ⟨current, hcurrent⟩ := balance?_of_mem hb
        rw [howner, hid] at hcurrent
        simpa [books, hcurrent] using hnone b.currency b.currency.mem_all

/-- The end of a plan is what is specified for the books, and no duplicate. -/
def Meets (l : Ledger) (planned : Except LedgerError (Answer α × Ledger))
    (specified : Except LedgerError (Answer α) × Books) : Prop :=
  match planned with
  | .ok (a, l') => specified = (.ok a, l'.books)
  | .error e => specified = (.error e, l.books) ∧ ∀ k, e ≠ .store (.duplicate k)

theorem Meets.ends {planned : Except LedgerError (Answer α × Ledger)}
    {specified : Except LedgerError (Answer α) × Books} {type : RequestType} {shape : Shape α}
    {r : Except LedgerError (Answer α)} {after : Ledger} (h : l.Meets planned specified)
    (hends : Attempt.Ends (Plan.orRecorded planned key type shape l) l r after) :
    (r, after.books) = specified := by
  rcases planned with e | ⟨a, l'⟩
  · obtain ⟨rfl, hduplicate⟩ := h
    unfold Plan.orRecorded at hends
    split at hends
    next k heq => exact absurd (Except.error.inj heq) (hduplicate k)
    next => rw [hends.1, hends.2]
  · rw [hends.1, hends.2]
    exact h.symm

theorem meets_refused (r : Refusal) :
    l.Meets (.error (.refused r) : Except LedgerError (Answer α × Ledger))
      (.error (.refused r), l.books) :=
  ⟨rfl, fun _ => LedgerError.noConfusion⟩

theorem openAccount_meets (hsound : l.Sound) (hdocumented : l.Documented) (hfresh : draw.Fresh l)
    (hnow : Timestamp.yearInRange now.date.year = true) (c : OpenAccount) :
    l.Meets ((c.plan key now draw).unless (l.recorded key .openAccount Account.shape) l)
      (l.books.openAccount c key now draw) := by
  rw [hdocumented.recorded_account, Books.openAccount]
  cases hresult : l.books.result key with
  | some v =>
      cases v with
      | opened a => exact rfl
      | applied a => exact ⟨rfl, fun _ => LedgerError.noConfusion⟩
  | none =>
      -- Without a result there is no receipt, and the account is opened as the domain has it.
      have hnone := hdocumented.result_eq_none_iff.mp hresult
      change l.Meets (c.plan key now draw l) _
      rw [OpenAccount.plan_apply]
      have hopens : ∀ a, Account.opening c.customer c.country c.currencies now draw = .ok a →
          (l.opened a key now).books = l.books.opened key a c.currencies draw :=
        fun a hopening => hsound.books_opened ⟨hopening, hnone⟩ hfresh hnow
      rw [Account.opening_eq] at hopens ⊢
      dsimp only
      by_cases hempty : c.currencies = []
      · rw [if_pos hempty, if_pos hempty]
        exact meets_refused _
      rw [if_neg hempty] at hopens
      rw [if_neg hempty, if_neg hempty]
      cases hfind : Currency.all.find? fun k => 1 < c.currencies.count k with
      | some k => exact meets_refused _
      | none =>
          rw [hfind] at hopens
          dsimp only
          rw [if_pos hnone]
          exact congrArg (Prod.mk _) (hopens _ rfl).symm

/-- Under a key that is not recorded, a balance that is there is moved as specified. -/
theorem move_meets (hsound : l.Sound) (hdocumented : l.Documented)
    (hnow : Timestamp.yearInRange now.date.year = true) {c : ApplyTransaction} {owner : Account}
    {current : Balance} {available amount : Nat} (howner : l.account? c.accountId = some owner)
    (hcurrent : l.balance? c.accountId c.currency = some current)
    (havailable : current.available = ofCents available) (havailable_le : available ≤ maxCents)
    (hamount : c.amount.cents? = some amount) (hamount_le : amount ≤ maxCents)
    (hnone : l.receipt? key = none) :
    l.Meets (c.posting (ofCents amount) key now draw l)
      (l.books.move c ⟨current.id, available, current.version⟩ amount key now draw) := by
  rw [hsound.posting_eq howner hcurrent havailable havailable_le hamount_le, Books.move]
  dsimp only
  cases hmoved : c.direction.moved? available amount with
  | none =>
      rw [havailable]
      exact meets_refused _
  | some after =>
      -- A key without a receipt is on no transaction, so both rows are new.
      have hunposted := hdocumented.unposted hnone
      obtain ⟨hstored, haccount, hcurrency⟩ := stored_of_balance? hcurrent
      have hmoves : l.Moves c key now draw (c.applied current amount after key now draw) current
          available amount after :=
        ⟨hstored, haccount, hcurrency, havailable, havailable_le, hamount,
          (Decimal.cents?_eq_some_iff.mp hamount).1, hamount_le, hmoved, rfl⟩
      have hbooks := hsound.books_posted hnone hmoves hnow
      have hbalance : current.movedTo after now =
          ⟨current.id, c.accountId, c.currency, ofCents after, current.version + 1, now⟩ := by
        rw [← haccount, ← hcurrency]
        rfl
      dsimp only
      rw [if_pos ⟨hunposted, hnone⟩, ← hbalance]
      exact congrArg (Prod.mk _) hbooks.symm

/-- Under a key that is not recorded, a transaction is posted as specified. -/
theorem posting_meets (hsound : l.Sound) (hdocumented : l.Documented)
    (hnow : Timestamp.yearInRange now.date.year = true) {c : ApplyTransaction} {amount : Nat}
    (hamount : c.amount.cents? = some amount) (hamount_le : amount ≤ maxCents)
    (hnone : l.receipt? key = none) :
    l.Meets (c.posting (ofCents amount) key now draw l)
      (l.books.post c amount key now draw) := by
  rw [Books.post]
  cases howner : l.account? c.accountId with
  | none =>
      rw [if_pos ((hsound.account?_eq_none_iff _).mp howner), ApplyTransaction.posting_apply,
        howner]
      exact ⟨rfl, fun _ => LedgerError.noConfusion⟩
  | some owner =>
  have hopen : ¬ ∀ k ∈ Currency.all, (l.books.holding c.accountId k).isNone = true := by
    intro hempty
    rw [(hsound.account?_eq_none_iff _).mpr hempty] at howner
    cases howner
  rw [if_neg hopen]
  cases hcurrent : l.balance? c.accountId c.currency with
  | none =>
      have hholding : l.books.holding c.accountId c.currency = none := by simp [books, hcurrent]
      rw [hholding, ApplyTransaction.posting_apply, howner, hcurrent]
      exact ⟨rfl, fun _ => LedgerError.noConfusion⟩
  | some current =>
      obtain ⟨hstored, -, -⟩ := stored_of_balance? hcurrent
      obtain ⟨available, havailable_le, havailable⟩ := hsound.cents current hstored
      have hholding : l.books.holding c.accountId c.currency =
          some ⟨current.id, available, current.version⟩ := by
        rw [← Balance.holding_of_cents havailable havailable_le]
        simp [books, hcurrent]
      rw [hholding]
      exact move_meets hsound hdocumented hnow howner hcurrent havailable havailable_le hamount
        hamount_le hnone

theorem applyTransaction_meets (hsound : l.Sound) (hdocumented : l.Documented)
    (hnow : Timestamp.yearInRange now.date.year = true) (c : ApplyTransaction) :
    l.Meets (c.plan (l.recorded key .applyTransaction Applied.shape) key now draw l)
      (l.books.applyTransaction c key now draw) := by
  rw [ApplyTransaction.plan_apply, validate_eq, Books.applyTransaction]
  cases hamount : c.amount.cents? with
  | none => exact meets_refused _
  | some amount =>
  dsimp only
  by_cases hlarge : maxCents < amount
  · rw [if_pos hlarge, if_pos hlarge]
    exact meets_refused _
  rw [if_neg hlarge, if_neg hlarge]
  dsimp only
  by_cases hlong : 255 < c.description.length
  · have hdescribed : checkDescription c.description = .error .descriptionTooLong := if_pos hlong
    rw [hdescribed, if_pos hlong]
    exact meets_refused _
  have hdescribed : checkDescription c.description = .ok () := if_neg hlong
  rw [hdescribed, if_neg hlong, hdocumented.recorded_applied]
  cases hresult : l.books.result key with
  | some v =>
      cases v with
      | applied a => exact rfl
      | opened a => exact ⟨rfl, fun _ => LedgerError.noConfusion⟩
  | none =>
      exact posting_meets hsound hdocumented hnow hamount (Nat.not_lt.mp hlarge)
        (hdocumented.result_eq_none_iff.mp hresult)

/-- A transaction that is not disturbed does to the books what is specified, be the draw fresh or
not. -/
theorem Sound.books_apply (hsound : l.Sound) (hdocumented : l.Documented) {i : Instruction}
    {c : ApplyTransaction} (hcommand : i.command = .applyTransaction c)
    (hclock : Timestamp.yearInRange i.now.date.year = true) (hcalm : i.disturbances = .none) :
    ((l.serve i).1, (l.serve i).2.books) = l.books.serve i := by
  rcases i with ⟨command, key, now, draw, d⟩
  cases hcommand
  have hends := Store.ends_of_calm hcalm ((l.under d).applyTransaction_cases c key now draw)
  rw [Store.found_of_calm hcalm] at hends
  have hserved := (applyTransaction_meets hsound hdocumented hclock c).ends hends
  rw [serve_applyTransaction, Books.serve]
  dsimp only
  rw [← hserved]

/-- An undisturbed instruction does to the books what is specified. -/
theorem Sound.books_serve (hsound : l.Sound) (hdocumented : l.Documented) {i : Instruction}
    (hfresh : i.draw.Fresh l) (hclock : Timestamp.yearInRange i.now.date.year = true)
    (hcalm : i.disturbances = .none) :
    ((l.serve i).1, (l.serve i).2.books) = l.books.serve i := by
  rcases hcommand : i.command with c | c
  · rcases i with ⟨command, key, now, draw, d⟩
    cases hcommand
    have hends := Store.ends_of_calm hcalm ((l.under d).openAccount_cases c key now draw)
    rw [Store.found_of_calm hcalm] at hends
    have hserved := (openAccount_meets hsound hdocumented hfresh hclock c).ends hends
    rw [serve_openAccount, Books.serve]
    dsimp only
    rw [← hserved]
  · exact hsound.books_apply hdocumented hcommand hclock hcalm

theorem Sound.reports_eq (hsound : l.Sound) (hdocumented : l.Documented)
    {history : List Instruction} (hfresh : l.DrawsFresh history)
    (hclock : ∀ i ∈ history, Timestamp.yearInRange i.now.date.year = true)
    (hcalm : ∀ i ∈ history, i.disturbances = .none) :
    l.reports history = l.books.reports history := by
  -- The invariants carry the induction: after each instruction they hold of the ledger it leaves.
  induction history generalizing l with
  | nil => rfl
  | cons i rest ih =>
      obtain ⟨hdraw, hrest⟩ := hfresh
      rw [List.forall_mem_cons] at hclock hcalm
      have hone : l.DrawsFresh [i] := ⟨hdraw, trivial⟩
      obtain ⟨hsound', hdocumented'⟩ := hsound.documented_after hdocumented hone
        (List.forall_mem_singleton.mpr hclock.1)
      rw [reports, Books.reports, ← hsound.books_serve hdocumented hdraw hclock.1 hcalm.1]
      exact congrArg _ (ih hsound' hdocumented' hrest hclock.2 hcalm.2)

/-- A history without disturbances is answered as specified from empty books. -/
theorem reports_refine {history : List Instruction} (hfresh : ({} : Ledger).DrawsFresh history)
    (hclock : ∀ i ∈ history, Timestamp.yearInRange i.now.date.year = true)
    (hcalm : ∀ i ∈ history, i.disturbances = .none) :
    ({} : Ledger).reports history = Books.empty.reports history :=
  sound_empty.reports_eq documented_empty hfresh hclock hcalm

/-- On every ledger that a history leaves, an undisturbed instruction is answered as specified, and
does to the books what is specified. -/
theorem serve_refines {history : List Instruction} {i : Instruction}
    (hfresh : ({} : Ledger).DrawsFresh (history ++ [i]))
    (hclock : ∀ j ∈ history ++ [i], Timestamp.yearInRange j.now.date.year = true)
    (hcalm : i.disturbances = .none) :
    (((({} : Ledger).after history).serve i).1, ((({} : Ledger).after history).serve i).2.books) =
      (({} : Ledger).after history).books.serve i := by
  obtain ⟨hbefore, hdraw, -⟩ := drawsFresh_append.mp hfresh
  obtain ⟨hsound, hdocumented⟩ := sound_empty.documented_after documented_empty hbefore fun j hj =>
    hclock j (List.mem_append_left _ hj)
  exact hsound.books_serve hdocumented hdraw (hclock i (by simp)) hcalm

end Ledger

namespace Sample

theorem serve_refines_spent :
    (((({} : Ledger).after [opening, posting .credit 10000 "fill" 6 .none]).serve
        (posting .debit 4000 "spend" 12 .none)).1,
      ((({} : Ledger).after [opening, posting .credit 10000 "fill" 6 .none]).serve
        (posting .debit 4000 "spend" 12 .none)).2.books) =
      (({} : Ledger).after [opening, posting .credit 10000 "fill" 6 .none]).books.serve
        (posting .debit 4000 "spend" 12 .none) :=
  Ledger.serve_refines (Ledger.drawsFresh_of_nodup (by decide)) (by decide) rfl

end Sample

end KeyedLedger
