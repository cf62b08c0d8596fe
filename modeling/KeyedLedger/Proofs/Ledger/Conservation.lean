import KeyedLedger.Proofs.Ledger.Invariant

/-! # Conservation of balances

Whatever the commands, the keys, the clock and the failures of the store: what a balance has is the
sum of the moves that are recorded for it, each of which records the sum up to it, and its version
counts them.
-/

namespace KeyedLedger

open Money

/-- What a transaction adds to its balance. -/
def Transaction.effect (t : Transaction) : ℚ :=
  match t.direction with
  | .credit => t.amount.toRat
  | .debit => -t.amount.toRat

/-- A balance agrees with the transactions that are recorded for it, oldest first. -/
structure Balance.Reconciles (b : Balance) (moves : List Transaction) : Prop where
  scale : b.available.scale = 2
  nonneg : 0 ≤ b.available.toRat
  limit : b.available.toRat ≤ 99999999999999999.99
  available : b.available.toRat = (moves.map Transaction.effect).sum
  version : b.version = Int64.ofNat (1 + moves.length)
  running : ∀ earlier t later, moves = earlier ++ t :: later →
    t.balanceAfter.toRat = ((earlier ++ [t]).map Transaction.effect).sum

namespace Ledger

/-- The transactions of a balance, oldest first. -/
def movesOf (l : Ledger) (id : Identifier) : List Transaction :=
  l.transactions.filter fun t => t.balanceId = id

/-- Every balance agrees with its transactions, and every transaction has its account and a balance
of that account in its currency. -/
structure Balanced (l : Ledger) : Prop where
  reconciles : ∀ b ∈ l.balances, b.Reconciles (l.movesOf b.id)
  account : ∀ t ∈ l.transactions, ∃ r ∈ l.accounts, r.id = t.accountId
  balance : ∀ t ∈ l.transactions, ∃ b ∈ l.balances,
    b.id = t.balanceId ∧ b.accountId = t.accountId ∧ b.currency = t.currency

end Ledger

theorem Direction.signed_eq_effect {t : Transaction} {n : Nat} (ht : t.amount = ofCents n)
    (hn : n ≤ maxCents) : t.effect = (t.direction.signed n : Int) / 100 := by
  have hroom : n < Decimal.capacity := lt_of_le_of_lt hn maxCents_lt_capacity
  rw [Transaction.effect, ht, toRat_ofCents hroom]
  cases t.direction with
  | credit => simp [signed]
  | debit =>
      simp only [signed]
      push_cast
      ring

namespace Balance

theorem Reconciles.toInt_version {b : Balance} {moves : List Transaction} (h : b.Reconciles moves)
    (hroom : 1 + moves.length < 2 ^ 63) : b.version.toInt = 1 + moves.length := by
  rw [h.version, Int64.toInt_ofNat_of_lt hroom]
  push_cast
  rfl

theorem reconciles_opened (id accountId : Identifier) (c : Currency) (now : Timestamp) :
    (opened id accountId c now).Reconciles [] := by
  have hzero : (opened id accountId c now).available.toRat = 0 := Decimal.toRat_zero _
  refine ⟨rfl, hzero.ge, ?_, hzero, rfl, by simp⟩
  rw [hzero]
  norm_num

/-- A move and its record keep a balance in agreement. -/
theorem Reconciles.moved {current b : Balance} {moves : List Transaction} {t : Transaction}
    {available amount after : Nat} (h : current.Reconciles moves)
    (havailable : current.available = ofCents available) (havailable_le : available ≤ maxCents)
    (hamount : t.amount = ofCents amount) (hamount_le : amount ≤ maxCents)
    (hmoved : t.direction.moved? available amount = some after)
    (hb : b.available = ofCents after) (hversion : b.version = current.version + 1)
    (ht : t.balanceAfter = b.available) : b.Reconciles (moves ++ [t]) := by
  obtain ⟨hsum, hafter⟩ := Direction.moved?_eq_some hmoved havailable_le
  have hroom : after < Decimal.capacity := lt_of_le_of_lt hafter maxCents_lt_capacity
  have havailable_room : available < Decimal.capacity :=
    lt_of_le_of_lt havailable_le maxCents_lt_capacity
  have hrat : b.available.toRat = after / 100 := by rw [hb, toRat_ofCents hroom]
  have htotal : b.available.toRat = ((moves ++ [t]).map Transaction.effect).sum := by
    rw [List.map_append, List.sum_append, ← h.available, havailable, toRat_ofCents havailable_room,
      List.map_singleton, List.sum_singleton, Direction.signed_eq_effect hamount hamount_le, hrat,
      ← add_div]
    congr 1
    exact_mod_cast hsum
  refine ⟨by rw [hb]; rfl, by rw [hrat]; positivity, ?_, htotal, ?_, ?_⟩
  · have hcast : (after : ℚ) ≤ maxCents := by exact_mod_cast hafter
    calc b.available.toRat = after / 100 := hrat
      _ ≤ maxCents / 100 := by linarith only [hcast]
      _ = 99999999999999999.99 := by norm_num [maxCents]
  · rw [hversion, h.version, List.length_append, List.length_singleton, ← Nat.add_assoc]
    exact (Int64.ofNat_add (1 + moves.length) 1).symm
  · -- A record up to which the moves are summed is the new one, or one of those before.
    intro earlier u later hsplit
    rcases List.append_eq_append_iff.mp hsplit with ⟨rest, hearlier, hrest⟩ | ⟨rest, hmoves, hrest⟩
    · rcases rest with _ | ⟨v, rest⟩
      · cases hrest
        rw [hearlier, List.append_nil, ht, htotal]
      · simp at hrest
    · rcases rest with _ | ⟨v, rest⟩
      · cases hrest
        rw [← List.append_nil earlier, ← hmoves, ht, htotal]
      · cases hrest
        exact h.running earlier u rest hmoves

end Balance

namespace Ledger

variable {l : Ledger} {key : String} {now : Timestamp} {draw : Draw}

theorem balanced_empty : ({} : Ledger).Balanced :=
  ⟨by simp, by simp, by simp⟩

theorem Balanced.movesOf_eq_nil (h : l.Balanced) {id : Identifier}
    (hid : ∀ b ∈ l.balances, b.id ≠ id) : l.movesOf id = [] := by
  refine List.filter_eq_nil_iff.mpr fun t ht => ?_
  obtain ⟨b, hb, hsame, -, -⟩ := h.balance t ht
  simpa only [decide_eq_true_eq, ← hsame] using hid b hb

/-- The account and the balance of a recorded transaction are found. -/
theorem Balanced.found (h : l.Balanced) {t : Transaction} (ht : t ∈ l.transactions) :
    ∃ owner b, l.account? t.accountId = some owner ∧
      l.balance? t.accountId t.currency = some b := by
  obtain ⟨r, hr, hrow⟩ := h.account t ht
  obtain ⟨owner, howner⟩ := account?_of_mem hr
  obtain ⟨stored, hstored, -, haccount, hcurrency⟩ := h.balance t ht
  obtain ⟨b, hb⟩ := balance?_of_mem hstored
  rw [hrow] at howner
  rw [haccount, hcurrency] at hb
  exact ⟨owner, b, howner, hb⟩

theorem Balanced.opened {c : OpenAccount} {a : Account} (h : l.Balanced)
    (hopens : l.Opens c key now draw a) (hfresh : draw.Fresh l) :
    (l.opened a key now).Balanced := by
  have hbalances := hopens.balances_of_fresh hfresh
  have haccounts := hopens.accounts_of_fresh hfresh
  refine ⟨fun b hb => ?_, fun t ht => ?_, fun t ht => ?_⟩
  · rw [hbalances] at hb
    rcases List.mem_append.mp hb with hb | hb
    · exact h.reconciles b hb
    · obtain ⟨c, rfl⟩ := hopens.eq_opened hb
      have hnone : (l.opened a key now).movesOf (draw.balance c) = [] :=
        h.movesOf_eq_nil fun b hb => hfresh.balance b hb c
      exact hnone ▸ Balance.reconciles_opened _ _ _ _
  · obtain ⟨r, hr, hid⟩ := h.account t ht
    exact ⟨r, haccounts ▸ List.mem_append_left _ hr, hid⟩
  · obtain ⟨b, hb, hsame⟩ := h.balance t ht
    exact ⟨b, hbalances ▸ List.mem_append_left _ hb, hsame⟩

theorem movesOf_posted (l : Ledger) (a : Applied) (key : String) (now : Timestamp)
    (id : Identifier) : (l.posted a key now).movesOf id =
      l.movesOf id ++ if a.transaction.balanceId = id then [a.transaction] else [] := by
  rw [movesOf, movesOf, posted, List.filter_append]
  by_cases h : a.transaction.balanceId = id <;> simp [h]

theorem Balanced.reconciles_posted {c : ApplyTransaction} {a : Applied} {current b : Balance}
    {available amount after : Nat} (h : l.Balanced) (hsound : l.Sound)
    (hmoves : l.Moves c key now draw a current available amount after)
    (hb : b ∈ (l.posted a key now).balances) :
    b.Reconciles ((l.posted a key now).movesOf b.id) := by
  have hid : a.transaction.balanceId = a.balance.id := by rw [hmoves.transaction]; rfl
  rw [hsound.balances_posted hmoves] at hb
  obtain ⟨b', hb', rfl⟩ := List.mem_map.mp hb
  split
  next =>
    -- The balance that is moved gets the new transaction.
    have hcurrent := h.reconciles current hmoves.stored
    rw [← hmoves.id_eq] at hcurrent
    rw [movesOf_posted, if_pos hid]
    apply hcurrent.moved hmoves.available_eq hmoves.available_le _ hmoves.amount_le _
      (congrArg Balance.available hmoves.balance) (congrArg Balance.version hmoves.balance)
    · rw [hmoves.transaction]
      rfl
    · rw [hmoves.transaction]
      rfl
    · rw [hmoves.transaction]
      exact hmoves.moved
  next hother =>
    rw [movesOf_posted, hid, if_neg fun hsame => hother hsame.symm, List.append_nil]
    exact h.reconciles b' hb'

theorem Balanced.posted {c : ApplyTransaction} {a : Applied} (h : l.Balanced) (hsound : l.Sound)
    (hposts : l.Posts c key now draw a) : (l.posted a key now).Balanced := by
  obtain ⟨current, available, amount, after, hmoves⟩ := hsound.cents.moves hposts
  have hbalances := hsound.balances_posted hmoves
  have hmem : a.balance ∈ (l.posted a key now).balances := by
    rw [hbalances]
    exact List.mem_map.mpr ⟨current, hmoves.stored, if_pos hmoves.id_eq.symm⟩
  refine ⟨fun b hb => h.reconciles_posted hsound hmoves hb, fun t ht => ?_, fun t ht => ?_⟩
  · rcases List.mem_append.mp ht with ht | ht
    · exact h.account t ht
    · obtain ⟨r, hr, hsame⟩ := hsound.owner current hmoves.stored
      rw [List.mem_singleton.mp ht, hmoves.transaction]
      exact ⟨r, hr, hsame.trans hmoves.account⟩
  · rcases List.mem_append.mp ht with ht | ht
    · obtain ⟨b, hb, hsame⟩ := h.balance t ht
      by_cases hreplaced : b.id = a.balance.id
      · have hb' := hsound.eq_current hmoves hb hreplaced
        refine ⟨a.balance, hmem, ?_⟩
        rw [hmoves.balance, ← hb']
        exact hsame
      · refine ⟨b, ?_, hsame⟩
        rw [hbalances]
        exact List.mem_map.mpr ⟨b, hb, if_neg hreplaced⟩
    · refine ⟨a.balance, hmem, ?_⟩
      rw [List.mem_singleton.mp ht, hmoves.transaction, hmoves.balance]
      exact ⟨rfl, hmoves.account, hmoves.currency⟩

theorem sound_balanced_after {history : List Instruction}
    (hfresh : ({} : Ledger).DrawsFresh history) :
    (({} : Ledger).after history).Sound ∧ (({} : Ledger).after history).Balanced := by
  apply sound_empty.after_induction balanced_empty hfresh
  · intro l c i a _ _ hbalanced hdraw hopens
    exact hbalanced.opened hopens hdraw
  · intro l c i a _ hsound hbalanced _ hposts
    exact hbalanced.posted hsound hposts

/-- After every history, each balance is the sum of its moves and each move names its balance. -/
theorem balances_conserved {history : List Instruction}
    (hfresh : ({} : Ledger).DrawsFresh history) : (({} : Ledger).after history).Balanced :=
  (sound_balanced_after hfresh).2

theorem balances_conserved_sample :
    (({} : Ledger).after Sample.history).Balanced ∧
      (({} : Ledger).after Sample.history).balances.map Balance.available = [ofCents 6000] :=
  ⟨balances_conserved Sample.drawsFresh_history, by decide⟩

end Ledger

end KeyedLedger
