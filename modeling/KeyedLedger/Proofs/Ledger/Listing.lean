import KeyedLedger.Proofs.Ledger.Conservation
import KeyedLedger.Proofs.Ledger.Provenance

/-! # What is listed of an account

Accounts, balances and transactions are stored apart, and what is read of an account is put together
from them. After every history they fit: an account is found as it was opened, with one balance in
each of the currencies that it was opened with, in the order of the currencies; and each balance is
what the last of the transactions leaves that are listed for the account in its currency.
-/

namespace KeyedLedger

open Money

theorem Money.ofCents_inj {m n : Nat} (hm : m ≤ maxCents) (hn : n ≤ maxCents)
    (h : (ofCents m).toRat = (ofCents n).toRat) : m = n := by
  rw [toRat_ofCents (lt_of_le_of_lt hm maxCents_lt_capacity),
    toRat_ofCents (lt_of_le_of_lt hn maxCents_lt_capacity)] at h
  have hcast : (m : ℚ) = n := by linarith only [h]
  exact_mod_cast hcast

/-- What never changes of a balance. -/
def Balance.face (b : Balance) : Identifier × Identifier × Currency :=
  (b.id, b.accountId, b.currency)

/-- Currencies that are taken one after the other in their order are as they are listed. -/
theorem Currency.flatMap_filter_all (p : Currency → Bool) :
    (all.flatMap fun k => (all.filter p).filter fun c => c = k) = all.filter p := by
  cases heur : p .eur <;> cases hsek : p .sek <;> cases hgbp : p .gbp <;> cases husd : p .usd <;>
    simp [all, heur, hsek, hgbp, husd]

/-- A row is the only one with its name, where names are distinct. -/
theorem filter_name_eq {α κ : Type} [DecidableEq κ] {name : α → κ} {rows : List α}
    (hnodup : (rows.map name).Nodup) {r : α} (hr : r ∈ rows) :
    (rows.filter fun s => name s = name r) = [r] := by
  induction rows with
  | nil => cases hr
  | cons s rest ih =>
      obtain ⟨hnew, hrest⟩ := List.nodup_cons.mp hnodup
      rcases List.mem_cons.mp hr with rfl | hr
      · rw [List.filter_cons_of_pos (by simp), List.filter_eq_nil_iff.mpr]
        intro s hs hname
        rw [decide_eq_true_eq] at hname
        exact hnew (hname ▸ List.mem_map_of_mem hs)
      · have hother : name s ≠ name r := fun hname => hnew (hname ▸ List.mem_map_of_mem hr)
        rw [List.filter_cons_of_neg (by simpa using hother), ih hrest hr]

namespace Ledger

variable {l : Ledger} {key : String} {now : Timestamp} {draw : Draw}

/-! ## Rows that are told apart -/

/-- Accounts and transactions are told apart by their identifiers, and each transaction leaves a
number of cents that does not pass the maximum. -/
structure Listed (l : Ledger) : Prop where
  accounts : (l.accounts.map AccountRow.id).Nodup
  transactions : (l.transactions.map Transaction.id).Nodup
  cents : ∀ t ∈ l.transactions, ∃ n ≤ maxCents, t.balanceAfter = ofCents n

theorem listed_empty : ({} : Ledger).Listed :=
  ⟨List.nodup_nil, List.nodup_nil, by simp⟩

theorem Listed.opened {c : OpenAccount} {a : Account} (h : l.Listed)
    (hopens : l.Opens c key now draw a) (hfresh : draw.Fresh l) :
    (l.opened a key now).Listed := by
  refine ⟨?_, h.transactions, h.cents⟩
  rw [hopens.accounts_of_fresh hfresh]
  obtain ⟨currencies, -, rfl⟩ := Account.eq_of_opening hopens.opening
  refine nodup_map_append h.accounts (List.nodup_singleton _) fun r hr s hs => ?_
  rw [List.mem_singleton.mp hs]
  exact hfresh.account r hr

theorem Listed.posted {c : ApplyTransaction} {a : Applied} (h : l.Listed) (hcents : l.InCents)
    (hposts : l.Posts c key now draw a) (hfresh : draw.Fresh l) :
    (l.posted a key now).Listed := by
  obtain ⟨current, available, amount, after, hmoves⟩ := hcents.moves hposts
  have hid : a.transaction.id = draw.transaction := by
    rw [hmoves.transaction]
    rfl
  have hafter : a.transaction.balanceAfter = ofCents after := by
    rw [hmoves.transaction, hmoves.balance]
    rfl
  refine ⟨h.accounts, nodup_map_append h.transactions (List.nodup_singleton _) ?_, ?_⟩
  · intro t ht u hu
    rw [List.mem_singleton.mp hu, hid]
    exact hfresh.transaction t ht
  · intro t ht
    rcases List.mem_append.mp ht with ht | ht
    · exact h.cents t ht
    · rw [List.mem_singleton.mp ht]
      exact ⟨after, hmoves.after_le, hafter⟩

theorem listed_after {history : List Instruction} (hfresh : ({} : Ledger).DrawsFresh history) :
    (({} : Ledger).after history).Listed := by
  refine (sound_empty.after_induction listed_empty hfresh ?_ ?_).2
  · intro l c i a _ _ hlisted hdraw hopens
    exact hlisted.opened hopens hdraw
  · intro l c i a _ hsound hlisted hdraw hposts
    exact hlisted.posted hsound.cents hposts hdraw

/-! ## Accounts as they were opened -/

theorem mem_balancesOf {b : Balance} {id : Identifier} :
    b ∈ l.balancesOf id ↔ b ∈ l.balances ∧ b.accountId = id := by
  simp [balancesOf, Currency.mem_all]

theorem map_face_balancesOf (l : Ledger) (id : Identifier) :
    (l.balancesOf id).map Balance.face = Currency.all.flatMap fun c =>
      (l.balances.map Balance.face).filter fun f => f.2.1 = id ∧ f.2.2 = c := by
  simp only [balancesOf, List.map_flatMap, List.filter_map]
  rfl

/-- The balances of an account are in the order of the currencies, no two in one currency. -/
theorem Sound.pairwise_balancesOf (h : l.Sound) (id : Identifier) :
    (l.balancesOf id).Pairwise fun b b' => b.currency.rank < b'.currency.rank := by
  rw [balancesOf, List.pairwise_flatMap]
  constructor
  · intro c _
    have hpairs : (l.balances.filter fun b => b.accountId = id ∧ b.currency = c).Pairwise
        fun b b' => b.pair ≠ b'.pair := (List.pairwise_map.mp h.pairs).filter _
    refine hpairs.imp_of_mem fun hb hb' hne => ?_
    simp only [List.mem_filter, decide_eq_true_eq] at hb hb'
    exact absurd (Prod.ext (hb.2.1.trans hb'.2.1.symm) (hb.2.2.trans hb'.2.2.symm)) hne
  · have hranks : Currency.all.Pairwise fun c c' => c.rank < c'.rank := by decide
    refine hranks.imp fun hlt b hb b' hb' => ?_
    simp only [List.mem_filter, decide_eq_true_eq] at hb hb'
    rw [hb.2.2, hb'.2.2]
    exact hlt

/-- A ledger holds an account as it was opened: it has its row, and the balances in its currencies,
whatever these have become. -/
structure Holds (l : Ledger) (a : Account) : Prop where
  row : a.row ∈ l.accounts
  faces : (l.balancesOf a.id).map Balance.face = a.balances.map Balance.face

theorem Holds.account? {a : Account} (h : l.Holds a) (hlisted : l.Listed) :
    l.account? a.id = some (a.row.withBalances (l.balancesOf a.id)) := by
  have hrow : (l.accounts.find? fun r => r.id = a.id) = some a.row :=
    find?_of_mem hlisted.accounts h.row rfl
  rw [Ledger.account?, hrow, Option.map_some]

/-- The balances that an account is opened with are in the order of the currencies. -/
theorem Opens.faces {c : OpenAccount} {a : Account} (hopens : l.Opens c key now draw a) :
    (Currency.all.flatMap fun k =>
      (a.balances.map Balance.face).filter fun f => f.2.1 = a.id ∧ f.2.2 = k) =
        a.balances.map Balance.face := by
  obtain ⟨currencies, hdistinct, rfl⟩ := Account.eq_of_opening hopens.opening
  have horder := Currency.flatMap_filter_all fun k => c.currencies.contains k
  rw [← Currency.eq_of_distinct hdistinct] at horder
  simp only [List.map_map, List.filter_map, ← List.map_flatMap]
  refine congrArg _ (Eq.trans ?_ horder)
  simp [Function.comp_def, Balance.face, Balance.opened]

/-- An account has no balance on a ledger on which its identifier is new. -/
theorem Sound.faces_of_new (h : l.Sound) {id : Identifier} (hnew : ∀ r ∈ l.accounts, r.id ≠ id)
    (k : Currency) :
    ((l.balances.map Balance.face).filter fun f => f.2.1 = id ∧ f.2.2 = k) = [] := by
  rw [List.filter_eq_nil_iff]
  intro f hf hsame
  obtain ⟨b, hb, rfl⟩ := List.mem_map.mp hf
  obtain ⟨r, hr, howner⟩ := h.owner b hb
  rw [decide_eq_true_eq] at hsame
  exact hnew r hr (howner.trans hsame.1)

/-- Opening an account leaves it held, -/
theorem Opens.holds {c : OpenAccount} {a : Account} (hopens : l.Opens c key now draw a)
    (hsound : l.Sound) (hfresh : draw.Fresh l) : (l.opened a key now).Holds a := by
  have hid : a.id = draw.account := by
    obtain ⟨currencies, -, rfl⟩ := Account.eq_of_opening hopens.opening
    rfl
  constructor
  · rw [hopens.accounts_of_fresh hfresh]
    exact List.mem_append_right _ List.mem_cons_self
  · have hold := hsound.faces_of_new (hid ▸ hfresh.account)
    rw [map_face_balancesOf, hopens.balances_of_fresh hfresh]
    simp only [List.map_append, List.filter_append, hold, List.nil_append]
    exact hopens.faces

/-- opening another one keeps it so, -/
theorem Holds.opened {c : OpenAccount} {a a' : Account} (h : l.Holds a')
    (hopens : l.Opens c key now draw a) (hfresh : draw.Fresh l) :
    (l.opened a key now).Holds a' := by
  constructor
  · rw [hopens.accounts_of_fresh hfresh]
    exact List.mem_append_left _ h.row
  · have hother : ∀ k, ((a.balances.map Balance.face).filter fun f => f.2.1 = a'.id ∧ f.2.2 = k) =
        [] := by
      intro k
      rw [List.filter_eq_nil_iff]
      intro f hf hsame
      obtain ⟨b, hb, rfl⟩ := List.mem_map.mp hf
      obtain ⟨c, rfl⟩ := hopens.eq_opened hb
      rw [decide_eq_true_eq] at hsame
      exact hfresh.account a'.row h.row hsame.1.symm
    rw [map_face_balancesOf, hopens.balances_of_fresh hfresh]
    simp only [List.map_append, List.filter_append, hother, List.append_nil]
    rw [← map_face_balancesOf]
    exact h.faces

/-- and so does posting a transaction. -/
theorem Holds.posted {c : ApplyTransaction} {a : Applied} {a' : Account} (h : l.Holds a')
    (hsound : l.Sound) (hposts : l.Posts c key now draw a) : (l.posted a key now).Holds a' := by
  obtain ⟨current, available, amount, after, hmoves⟩ := hsound.cents.moves hposts
  have hface : a.balance.face = current.face := by
    rw [hmoves.balance]
    rfl
  refine ⟨h.row, ?_⟩
  rw [map_face_balancesOf, hsound.map_posted hmoves _ hface, ← map_face_balancesOf]
  exact h.faces

/-- An account that has been opened in the course of a history is held at its end. -/
theorem Commits.holds {history : List Instruction} {a : Account}
    (h : ({} : Ledger).Commits history key (.opened a))
    (hfresh : ({} : Ledger).DrawsFresh history) : (({} : Ledger).after history).Holds a := by
  obtain ⟨before, i, after, rfl, rfl, heffect⟩ := h
  obtain ⟨hbefore, hdraw, hafter⟩ := drawsFresh_append.mp hfresh
  have hsound := sound_after hbefore
  have hserve := (({} : Ledger).after before).serve_effect i
  rw [heffect] at hserve
  obtain ⟨⟨c, hopens⟩, hopened⟩ := hserve
  rw [hopened] at hafter
  rw [after_append]
  change (((({} : Ledger).after before).serve i).2.after after).Holds a
  rw [hopened]
  have hheld := hopens.holds hsound hdraw
  refine (Sound.after_induction (P := fun l => l.Holds a) (hsound.opened hopens hdraw) hheld hafter
    ?_ ?_).2
  · intro l c i a' _ _ hholds hdraw hopens
    exact hholds.opened hopens hdraw
  · intro l c i a' _ hsound hholds _ hposts
    exact hholds.posted hsound hposts

/-- Every account of a ledger has been opened. -/
theorem commits_of_row {history : List Instruction} {r : AccountRow}
    (hr : r ∈ (({} : Ledger).after history).accounts) :
    ∃ key a, ({} : Ledger).Commits history key (.opened a) ∧ a.row = r := by
  induction history using List.reverseRecOn with
  | nil => cases hr
  | append_singleton history i ih =>
      rw [after_concat] at hr
      have hserve := (({} : Ledger).after history).serve_effect i
      rcases heffect : ((({} : Ledger).after history).serve i).1.effect? with _ | a | a <;>
        rw [heffect] at hserve
      · rw [hserve] at hr
        obtain ⟨key, a, hcommits, ha⟩ := ih hr
        exact ⟨key, a, hcommits.append [i], ha⟩
      · rw [hserve.2] at hr
        rcases mem_upsert hr with rfl | hr
        · exact ⟨i.key, a, ⟨history, i, [], rfl, rfl, heffect⟩, rfl⟩
        · obtain ⟨key, a', hcommits, ha⟩ := ih hr
          exact ⟨key, a', hcommits.append [i], ha⟩
      · rw [hserve.2] at hr
        obtain ⟨key, a', hcommits, ha⟩ := ih hr
        exact ⟨key, a', hcommits.append [i], ha⟩

/-! ## Balances and the transactions that are listed -/

/-- The transactions of a balance are those of its account in its currency. -/
theorem Balanced.movesOf_eq (h : l.Balanced) (hsound : l.Sound) {b : Balance}
    (hb : b ∈ l.balances) :
    l.movesOf b.id = (l.transactionsOf b.accountId).filter fun t => t.currency = b.currency := by
  rw [movesOf, transactionsOf, List.filter_filter]
  refine List.filter_congr fun t ht => ?_
  obtain ⟨b', hb', hid, haccount, hcurrency⟩ := h.balance t ht
  rw [← Bool.decide_and, decide_eq_decide, ← hid, ← haccount, ← hcurrency]
  constructor
  · intro hsame
    rw [List.inj_on_of_nodup_map hsound.distinct hb' hb hsame]
    exact ⟨rfl, rfl⟩
  · rintro ⟨hsame, hsame'⟩
    rw [List.inj_on_of_nodup_map hsound.pairs hb' hb (Prod.ext hsame' hsame)]

/-- A balance is what its last transaction leaves, and zero if it has none. -/
theorem Balanced.available_eq (h : l.Balanced) (hsound : l.Sound) (hlisted : l.Listed) {b : Balance}
    (hb : b ∈ l.balances) :
    b.available = ((l.movesOf b.id).getLast?.map Transaction.balanceAfter).getD zero := by
  obtain ⟨m, hm, hcents⟩ := hsound.cents b hb
  have hreconciles := h.reconciles b hb
  have hsum := hreconciles.available
  rcases List.eq_nil_or_concat (l.movesOf b.id) with hnone | ⟨earlier, t, hmoves⟩
  · rw [hnone, hcents] at hsum
    have hzero : (ofCents m).toRat = (ofCents 0).toRat := by
      rw [hsum, ← zero_eq_ofCents]
      exact (Decimal.toRat_zero _).symm
    rw [hnone, hcents, ofCents_inj hm (Nat.zero_le _) hzero, ← zero_eq_ofCents]
    rfl
  · rw [List.concat_eq_append] at hmoves
    have ht : t ∈ l.transactions := by
      refine (List.mem_filter.mp (?_ : t ∈ l.movesOf b.id)).1
      rw [hmoves]
      exact List.mem_append_right _ List.mem_cons_self
    obtain ⟨n, hn, hafter⟩ := hlisted.cents t ht
    have hrunning := hreconciles.running earlier t [] hmoves
    rw [← hmoves, ← hsum, hafter, hcents] at hrunning
    rw [hmoves, List.getLast?_append_cons]
    simp only [List.getLast?_singleton, Option.map_some, Option.getD_some]
    rw [hcents, hafter, ofCents_inj hn hm hrunning]

end Ledger

end KeyedLedger
