import KeyedLedger.Proofs.Ledger.Books
import KeyedLedger.Proofs.Ledger.Effects

/-! # One effect for each key

The journal of a history lists the effects of its instructions under their keys, oldest first. A
ledger that a history has left is nothing but its journal: its accounts, its transactions and its
receipts are those of the entries, in order (`Journaled`). The keys of the entries differ, since an
instruction has an effect only where its key has no receipt.
-/

namespace KeyedLedger

namespace Result

/-- The row of the account that was opened. -/
def row? : Result → Option AccountRow
  | opened a => some a.row
  | applied _ => none

/-- The transaction that was applied. -/
def transaction? : Result → Option Transaction
  | opened _ => none
  | applied a => some a.transaction

end Result

namespace Ledger

/-- The effects of a history, each under the key of its instruction. -/
def journal (l : Ledger) : List Instruction → List (String × Result)
  | [] => []
  | i :: rest => ((l.serve i).1.effect?.map (Prod.mk i.key)).toList ++ (l.serve i).2.journal rest

/-- The accounts, the transactions and the receipts of a ledger are those of a journal, whose keys
differ. -/
structure Journaled (l : Ledger) (entries : List (String × Result)) : Prop where
  keys : (entries.map Prod.fst).Nodup
  accounts : l.accounts = entries.filterMap fun e => e.2.row?
  transactions : l.transactions = entries.filterMap fun e => e.2.transaction?
  receipts : List.Forall₂ (fun r e => r.key = e.1 ∧ r.value? = some e.2) l.receipts entries
  recorded : ∀ e ∈ entries, ∀ a, e.2 = .applied a → a.transaction.key = e.1 ∧
    a.transaction.balanceId = a.balance.id ∧ a.transaction.balanceAfter = a.balance.available

/-- A history has at most one effect for each key, and the ledger has a receipt for exactly the keys
of its effects. -/
structure OneEffectPerKey (history : List Instruction) : Prop where
  /-- No two effects of the history have one key. -/
  effects : ((({} : Ledger).journal history).map Prod.fst).Nodup
  /-- No two receipts have one key, nor have two transactions. -/
  receipts : ((({} : Ledger).after history).receipts.map Receipt.key).Nodup
  transactions : ((({} : Ledger).after history).transactions.map Transaction.key).Nodup
  /-- A key has a receipt exactly if either a transaction is stored under it or an account has been
  opened under it, and not both. -/
  receipt_iff : ∀ key, (∃ r ∈ (({} : Ledger).after history).receipts, r.key = key) ↔
    Xor (∃ t ∈ (({} : Ledger).after history).transactions, t.key = key)
      (∃ a, (key, .opened a) ∈ ({} : Ledger).journal history)
  /-- Each stored transaction is an effect under its key, and has a receipt that decodes to it and
  to the balance that it has left. -/
  transaction : ∀ t ∈ (({} : Ledger).after history).transactions, ∃ b,
    (t.key, .applied ⟨t, b⟩) ∈ ({} : Ledger).journal history ∧
    b.id = t.balanceId ∧ b.available = t.balanceAfter ∧
    ∃ r ∈ (({} : Ledger).after history).receipts, r.key = t.key ∧
      r.requestType = RequestType.applyTransaction.code ∧
      Applied.shape.decoder.ofJson r.result = .ok ⟨t, b⟩
  /-- Each account that has been opened is stored, and has a receipt that decodes to it as it was
  opened. -/
  account : ∀ key a, (key, .opened a) ∈ ({} : Ledger).journal history →
    a.row ∈ (({} : Ledger).after history).accounts ∧
    ∃ r ∈ (({} : Ledger).after history).receipts, r.key = key ∧
      r.requestType = RequestType.openAccount.code ∧
      Account.shape.decoder.ofJson r.result = .ok a
  /-- Each stored account has been opened under some key. -/
  opened : ∀ row ∈ (({} : Ledger).after history).accounts, ∃ key a,
    (key, .opened a) ∈ ({} : Ledger).journal history ∧ a.row = row
  /-- Receipts are never changed or removed. -/
  kept : ∀ before later, history = before ++ later →
    (({} : Ledger).after before).receipts <+: (({} : Ledger).after history).receipts
  /-- There are as many receipts as accounts and transactions. -/
  count : (({} : Ledger).after history).receipts.length =
    (({} : Ledger).after history).accounts.length +
      (({} : Ledger).after history).transactions.length

variable {l : Ledger} {entries : List (String × Result)} {key : String} {now : Timestamp}
  {draw : Draw}

theorem journaled_empty : ({} : Ledger).Journaled [] :=
  ⟨List.nodup_nil, rfl, rfl, List.Forall₂.nil, by simp⟩

theorem Journaled.map_key (h : l.Journaled entries) :
    l.receipts.map Receipt.key = entries.map Prod.fst := by
  rw [← List.forall₂_eq_eq_eq, List.forall₂_map_left_iff, List.forall₂_map_right_iff]
  exact h.receipts.imp fun _ _ hreceipt => hreceipt.1

theorem Journaled.length_receipts (h : l.Journaled entries) :
    l.receipts.length = entries.length := by
  rw [← List.length_map Receipt.key, h.map_key, List.length_map]

theorem mem_map_key {receipts : List Receipt} (key : String) :
    key ∈ receipts.map Receipt.key ↔ ∃ r ∈ receipts, r.key = key :=
  List.mem_map

/-- Every entry has its receipt. -/
theorem Journaled.receipt_of_mem (h : l.Journaled entries) {v : Result} (he : (key, v) ∈ entries) :
    ∃ r ∈ l.receipts, r.key = key ∧ r.value? = some v := by
  have hreceipts := h.receipts
  generalize l.receipts = receipts at hreceipts
  clear h
  induction hreceipts with
  | nil => simp at he
  | @cons r e receipts entries hfirst _ ih =>
      rcases List.mem_cons.mp he with rfl | hrest
      · exact ⟨r, List.mem_cons_self, hfirst⟩
      · obtain ⟨r, hr, hvalue⟩ := ih hrest
        exact ⟨r, List.mem_cons_of_mem _ hr, hvalue⟩

theorem Journaled.mem_of_transaction (h : l.Journaled entries) {t : Transaction}
    (ht : t ∈ l.transactions) : ∃ b, (t.key, .applied ⟨t, b⟩) ∈ entries ∧ b.id = t.balanceId ∧
      b.available = t.balanceAfter := by
  rw [h.transactions] at ht
  obtain ⟨⟨key, a | ⟨u, b⟩⟩, he, hvalue⟩ := List.mem_filterMap.mp ht
  · cases hvalue
  · cases hvalue
    obtain ⟨rfl, hid, havailable⟩ := h.recorded _ he _ rfl
    exact ⟨b, he, hid.symm, havailable.symm⟩

theorem Journaled.mem_of_row (h : l.Journaled entries) {row : AccountRow}
    (hrow : row ∈ l.accounts) :
    ∃ key a, (key, .opened a) ∈ entries ∧ a.row = row := by
  rw [h.accounts] at hrow
  obtain ⟨⟨key, a | a⟩, he, hvalue⟩ := List.mem_filterMap.mp hrow
  · exact ⟨key, a, he, Option.some.inj hvalue⟩
  · cases hvalue

/-- The transaction of an entry is stored under its key. -/
theorem Journaled.transaction_of_mem (h : l.Journaled entries) {a : Applied}
    (he : (key, .applied a) ∈ entries) :
    a.transaction ∈ l.transactions ∧ a.transaction.key = key := by
  refine ⟨?_, (h.recorded _ he a rfl).1⟩
  rw [h.transactions]
  exact List.mem_filterMap.mpr ⟨_, he, rfl⟩

/-- Under one key there is one entry. -/
theorem Journaled.eq_of_mem (h : l.Journaled entries) {v w : Result} (hv : (key, v) ∈ entries)
    (hw : (key, w) ∈ entries) : v = w :=
  congrArg Prod.snd (List.inj_on_of_nodup_map h.keys hv hw rfl)

/-- A ledger that gains the rows and the receipt of a value under a new key has one more entry. -/
theorem Journaled.append (h : l.Journaled entries) {l' : Ledger} {r : Receipt} {v : Result}
    (hnew : l.receipt? key = none) (haccounts : l'.accounts = l.accounts ++ v.row?.toList)
    (htransactions : l'.transactions = l.transactions ++ v.transaction?.toList)
    (hreceipts : l'.receipts = l.receipts ++ [r]) (hkey : r.key = key) (hvalue : r.value? = some v)
    (hrecorded : ∀ a, v = .applied a → a.transaction.key = key ∧
      a.transaction.balanceId = a.balance.id ∧ a.transaction.balanceAfter = a.balance.available) :
    l'.Journaled (entries ++ [(key, v)]) := by
  have hunused : key ∉ entries.map Prod.fst := by
    rw [← h.map_key, mem_map_key]
    rintro ⟨r, hr, hsame⟩
    exact (receipt?_eq_none_iff l key).mp hnew r hr hsame
  refine ⟨?_, ?_, ?_, ?_, fun e he => ?_⟩
  · rw [List.map_append, List.nodup_append]
    refine ⟨h.keys, List.nodup_singleton _, ?_⟩
    rintro k hk _ hsingle rfl
    cases List.mem_singleton.mp hsingle
    exact hunused hk
  · rw [haccounts, h.accounts, List.filterMap_append]
    cases v <;> rfl
  · rw [htransactions, h.transactions, List.filterMap_append]
    cases v <;> rfl
  · rw [hreceipts]
    exact List.rel_append h.receipts (List.Forall₂.cons ⟨hkey, hvalue⟩ List.Forall₂.nil)
  · rcases List.mem_append.mp he with he | he
    · exact h.recorded e he
    · rw [List.mem_singleton.mp he]
      exact hrecorded

/-- Serving an instruction enters its effect. -/
theorem Journaled.serve (h : l.Journaled entries) (hcents : l.InCents) {i : Instruction}
    (hfresh : i.draw.Fresh l) (hnow : Timestamp.yearInRange i.now.date.year = true) :
    (l.serve i).2.Journaled
      (entries ++ ((l.serve i).1.effect?.map (Prod.mk i.key)).toList) := by
  have heffect := l.serve_effect i
  rcases hanswer : (l.serve i).1.effect? with _ | a | a
  · rw [hanswer] at heffect
    rw [show (l.serve i).2 = l from heffect]
    simpa using h
  · rw [hanswer] at heffect
    obtain ⟨⟨c, hopens⟩, hafter⟩ := heffect
    rw [hafter]
    have hlegible := Account.legible_of_opening hopens.opening hnow
    exact h.append hopens.unrecorded (hopens.accounts_of_fresh hfresh) (List.append_nil _).symm rfl
      rfl (Receipt.value?_opened hlegible _ _) (by simp)
  · rw [hanswer] at heffect
    obtain ⟨⟨c, hposts⟩, hafter⟩ := heffect
    rw [hafter]
    obtain ⟨current, available, amount, after, hmoves⟩ := hcents.moves hposts
    obtain ⟨ht, hb⟩ := hmoves.legible hnow
    refine h.append hposts.unrecorded (List.append_nil _).symm rfl rfl rfl
      (Receipt.value?_applied ht hb _ _) ?_
    rintro _ ⟨⟩
    exact hposts.record

theorem Journaled.after (h : l.Journaled entries) (hcents : l.InCents) {history : List Instruction}
    (hfresh : l.DrawsFresh history)
    (hclock : ∀ i ∈ history, Timestamp.yearInRange i.now.date.year = true) :
    (l.after history).Journaled (entries ++ l.journal history) := by
  induction history generalizing l entries with
  | nil =>
      rw [journal, List.append_nil]
      exact h
  | cons i rest ih =>
      have hserve := h.serve hcents hfresh.1 (hclock i List.mem_cons_self)
      rw [journal, ← List.append_assoc]
      exact ih hserve (hcents.serve i) hfresh.2 fun j hj => hclock j (List.mem_cons_of_mem _ hj)

/-- Every entry is an account or a transaction. -/
theorem length_rows_add_transactions (entries : List (String × Result)) :
    (entries.filterMap fun e => e.2.row?).length +
      (entries.filterMap fun e => e.2.transaction?).length = entries.length := by
  induction entries with
  | nil => rfl
  | cons e rest ih =>
      rcases e with ⟨key, a | a⟩
      · change (rest.filterMap fun e => e.2.row?).length + 1 +
          (rest.filterMap fun e => e.2.transaction?).length = rest.length + 1
        omega
      · change (rest.filterMap fun e => e.2.row?).length +
          ((rest.filterMap fun e => e.2.transaction?).length + 1) = rest.length + 1
        omega

/-- Stored transactions have the keys of some of the entries, in order. -/
theorem Journaled.nodup_transactions (h : l.Journaled entries) :
    (l.transactions.map Transaction.key).Nodup := by
  have hsub : ∀ entries : List (String × Result), (∀ e ∈ entries, ∀ a, e.2 = .applied a →
      a.transaction.key = e.1) →
      ((entries.filterMap fun e => e.2.transaction?).map Transaction.key).Sublist
        (entries.map Prod.fst) := by
    intro entries hkeys
    induction entries with
    | nil => exact List.Sublist.refl _
    | cons e rest ih =>
        have hrest := ih fun e he => hkeys e (List.mem_cons_of_mem _ he)
        rcases e with ⟨key, a | a⟩
        · exact hrest.cons _
        · have hkey := hkeys _ List.mem_cons_self a rfl
          rw [List.map_cons, ← hkey]
          exact hrest.cons_cons _
  rw [h.transactions]
  exact (hsub entries fun e he a ha => (h.recorded e he a ha).1).nodup h.keys

theorem receipts_prefix_after (history : List Instruction) :
    l.receipts <+: (l.after history).receipts := by
  apply after_of_serve (P := fun l' => l.receipts <+: l'.receipts) _ (List.prefix_refl _)
  intro l' i hprefix
  apply serve_induction (P := fun l' => l.receipts <+: l'.receipts) hprefix
  · exact fun _ _ _ => hprefix.trans (List.prefix_append _ _)
  · exact fun _ _ _ => hprefix.trans (List.prefix_append _ _)

/-- A key has a receipt exactly if it has a transaction or an opened account, and not both. -/
theorem Journaled.receipt_iff (h : l.Journaled entries) (key : String) :
    (∃ r ∈ l.receipts, r.key = key) ↔
      Xor (∃ t ∈ l.transactions, t.key = key) (∃ a, (key, .opened a) ∈ entries) := by
  have hopened : ∀ {t : Transaction} {a : Account}, t ∈ l.transactions → t.key = key →
      (key, .opened a) ∉ entries := by
    rintro t a ht rfl ha
    obtain ⟨b, hb, -⟩ := h.mem_of_transaction ht
    cases h.eq_of_mem ha hb
  constructor
  · rintro ⟨r, hr, hkey⟩
    have hmem : key ∈ entries.map Prod.fst := by
      rw [← h.map_key, mem_map_key]
      exact ⟨r, hr, hkey⟩
    obtain ⟨⟨_, a | a⟩, he, rfl⟩ := List.mem_map.mp hmem
    · exact Or.inr ⟨⟨a, he⟩, fun ⟨t, ht, hsame⟩ => hopened ht hsame he⟩
    · obtain ⟨ht, hsame⟩ := h.transaction_of_mem he
      exact Or.inl ⟨⟨_, ht, hsame⟩, fun ⟨a, ha⟩ => hopened ht hsame ha⟩
  · rintro (⟨⟨t, ht, rfl⟩, -⟩ | ⟨⟨a, ha⟩, -⟩)
    · obtain ⟨b, hb, -⟩ := h.mem_of_transaction ht
      obtain ⟨r, hr, hkey, -⟩ := h.receipt_of_mem hb
      exact ⟨r, hr, hkey⟩
    · obtain ⟨r, hr, hkey, -⟩ := h.receipt_of_mem ha
      exact ⟨r, hr, hkey⟩

/-- From an empty ledger, whatever the commands, the keys and the failures of the store, each key
has at most one effect, and exactly one receipt for it. -/
theorem one_effect_per_key {history : List Instruction} (hfresh : ({} : Ledger).DrawsFresh history)
    (hclock : ∀ i ∈ history, Timestamp.yearInRange i.now.date.year = true) :
    OneEffectPerKey history := by
  have h : (({} : Ledger).after history).Journaled (({} : Ledger).journal history) :=
    journaled_empty.after (inCents_after []) hfresh hclock
  refine ⟨h.keys, h.map_key ▸ h.keys, h.nodup_transactions, h.receipt_iff, fun t ht => ?_,
    fun key a ha => ?_, fun row hrow => h.mem_of_row hrow, ?_, ?_⟩
  · obtain ⟨b, hb, hid, havailable⟩ := h.mem_of_transaction ht
    obtain ⟨r, hr, hkey, hvalue⟩ := h.receipt_of_mem hb
    exact ⟨b, hb, hid, havailable, r, hr, hkey, Receipt.eq_of_value? hvalue⟩
  · obtain ⟨r, hr, hkey, hvalue⟩ := h.receipt_of_mem ha
    refine ⟨?_, r, hr, hkey, Receipt.eq_of_value? hvalue⟩
    rw [h.accounts]
    exact List.mem_filterMap.mpr ⟨_, ha, rfl⟩
  · rintro before later rfl
    rw [after_append]
    exact receipts_prefix_after later
  · rw [h.length_receipts, h.accounts, h.transactions, length_rows_add_transactions]

end Ledger

namespace Sample

/-- The account is opened and filled; the key of the opening is tried for a debit, and the debit
fails at the end of its unit of work before it is tried again. -/
def crossed : List Instruction :=
  [opening, posting .credit 10000 "fill" 6 .none, posting .debit 4000 "open" 12 .none,
    posting .debit 4000 "spend" 18 (.once .commit (.fails (.duplicate "spend"))),
    posting .debit 4000 "spend" 24 .none]

theorem one_effect_per_key_crossed :
    Ledger.OneEffectPerKey crossed ∧
      (({} : Ledger).journal crossed).map Prod.fst = ["open", "fill", "spend"] :=
  ⟨Ledger.one_effect_per_key (Ledger.drawsFresh_of_nodup (by decide)) (by decide), by rfl⟩

end Sample

end KeyedLedger
