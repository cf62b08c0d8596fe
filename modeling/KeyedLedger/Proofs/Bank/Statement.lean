import KeyedLedger.Proofs.Bank.Answers
import KeyedLedger.Proofs.Bank.Rejections
import KeyedLedger.Proofs.Ledger.Listing
import KeyedLedger.Proofs.Ledger.Overlooked

/-! # What callers read

A caller who reads an account is shown its balances, or its transactions one after the other. Both
are read from what is stored at that moment, and they fit each other, and they fit what callers have
been told of the account and of its transactions at any time before.
-/

namespace KeyedLedger

open Money

/-! ## Reads -/

namespace Store

variable {α : Type}

/-- A read changes nothing, and it shows what is committed unless it fails. -/
theorem read_cases (s : Store) (call : StoreCall) (f : Ledger → α) :
    (s.read call f).2 = { s with calls := call :: s.calls } ∧
      ((s.read call f).1 = .ok (f s.ledger) ∨
        ∃ e, (s.read call f).1 = .error e ∧
          s.disturbances (call :: s.calls) = some (.fails e)) := by
  simp only [read, note]
  rcases s.disturbances (call :: s.calls) with _ | e | _
  · exact ⟨rfl, .inl rfl⟩
  · exact ⟨rfl, .inr ⟨e, rfl, rfl⟩⟩
  · exact ⟨rfl, .inl rfl⟩

theorem read_ok {s : Store} {call : StoreCall} {f : Ledger → α} {a : α}
    (h : (s.read call f).1 = .ok a) : a = f s.ledger := by
  rcases (s.read_cases call f).2 with hread | ⟨e, hread, -⟩ <;> rw [hread] at h <;> cases h
  rfl

theorem read_calm {s : Store} (hcalm : s.disturbances = .none) (call : StoreCall)
    (f : Ledger → α) : (s.read call f).1 = .ok (f s.ledger) := by
  rcases (s.read_cases call f).2 with hread | ⟨e, -, hfails⟩
  · exact hread
  · rw [hcalm] at hfails
    cases hfails

end Store

namespace Bank

variable {s : Bank} {id : Identifier} {raw : String}

/-- The bank with what is to go wrong with its store from now on. -/
def disturb (s : Bank) (d : Disturbances) : Bank :=
  { s with backend := { s.backend with store := s.backend.store.disturb d } }

/-- To look for an account changes nothing. -/
theorem find_store (s : Bank) (id : Identifier) :
    (s.find id).2.backend.store = { s.backend.store with
      calls := .readAccount :: s.backend.store.calls } :=
  (s.backend.store.read_cases .readAccount fun l => l.account? id).1

theorem find_ok {a : Account} (h : (s.find id).1 = .ok a) : s.ledger.account? id = some a := by
  rw [find] at h
  rcases hread : s.backend.store.account? id with ⟨e | found, store⟩
  · simp only [hread, readable] at h
    cases h
  · have hfound : found = s.ledger.account? id :=
      Store.read_ok (congrArg Prod.fst hread)
    simp only [hread, readable] at h
    cases found with
    | none => cases h
    | some b =>
        cases h
        exact hfound.symm

theorem find_calm (hcalm : s.backend.store.disturbances = .none) {a : Account}
    (ha : s.ledger.account? id = some a) : (s.find id).1 = .ok a := by
  have hread : (s.backend.store.account? id).1 = .ok (some a) :=
    ha ▸ Store.read_calm hcalm .readAccount fun l => l.account? id
  rw [find]
  rcases hfound : s.backend.store.account? id with ⟨found, store⟩
  rw [hfound] at hread
  obtain rfl : found = .ok (some a) := hread
  rfl

/-- An account that is shown is as it is committed, -/
theorem account_ok {shown : AccountView} (h : (s.account raw).1 = .ok shown) :
    ∃ id a, readAccountId raw = .ok id ∧ s.ledger.account? id = some a ∧ shown = .ofAccount a := by
  rw [account] at h
  cases hraw : readAccountId raw with
  | error e =>
      rw [hraw] at h
      cases h
  | ok id =>
      rcases hfind : s.find id with ⟨found, s'⟩
      simp only [hraw, hfind] at h
      obtain ⟨a, rfl, rfl⟩ := map_ok h
      exact ⟨id, a, rfl, find_ok (congrArg Prod.fst hfind), rfl⟩

/-- and so are transactions. -/
theorem transactions_ok {views : List TransactionView} (h : (s.transactions raw).1 = .ok views) :
    ∃ id a, readAccountId raw = .ok id ∧ s.ledger.account? id = some a ∧
      views = (s.ledger.transactionsOf id).map .ofTransaction := by
  rw [transactions] at h
  cases hraw : readAccountId raw with
  | error e =>
      rw [hraw] at h
      cases h
  | ok id =>
      have hstore := s.find_store id
      rcases hfind : s.find id with ⟨e | a, s'⟩
      · simp only [hraw, hfind] at h
        cases h
      · rw [hfind] at hstore
        simp only [hraw, hfind] at h
        rcases hread : s'.backend.store.transactionsOf id with ⟨found, store⟩
        simp only [hread] at h
        obtain ⟨ts, hts, rfl⟩ := map_ok h
        cases found with
        | error e => cases hts
        | ok ts' =>
            cases hts
            have hlisted : ts = s'.backend.store.ledger.transactionsOf id :=
              Store.read_ok (congrArg Prod.fst hread)
            rw [hlisted, hstore]
            exact ⟨id, a, rfl, find_ok (congrArg Prod.fst hfind), rfl⟩

/-- On a store that does not fail both are shown. -/
theorem shown_of_calm (hcalm : s.backend.store.disturbances = .none) {a : Account}
    (hraw : readAccountId raw = .ok id) (ha : s.ledger.account? id = some a) :
    (∃ shown, (s.account raw).1 = .ok shown) ∧ ∃ views, (s.transactions raw).1 = .ok views := by
  have hfound := find_calm hcalm ha
  have hstore := s.find_store id
  rcases hfind : s.find id with ⟨found, s'⟩
  rw [hfind] at hfound hstore
  obtain rfl : found = .ok a := hfound
  constructor
  · simp only [account, hraw, hfind]
    exact ⟨_, rfl⟩
  · have hcalm' : s'.backend.store.disturbances = .none := by
      rw [hstore]
      exact hcalm
    have hread := Store.read_calm hcalm' .readTransactions fun l => l.transactionsOf id
    rcases hlisted : s'.backend.store.transactionsOf id with ⟨listed, store⟩
    have hlisted' : listed = .ok (s'.backend.store.ledger.transactionsOf id) :=
      (congrArg Prod.fst hlisted).symm.trans hread
    simp only [transactions, hraw, hfind, hlisted, hlisted']
    exact ⟨_, rfl⟩

end Bank

/-! ## What is shown -/

namespace TransactionView

/-- What a transaction that is shown adds to its balance. -/
def effect (v : TransactionView) : ℚ :=
  match v.direction with
  | .credit => v.amount.toRat
  | .debit => -v.amount.toRat

/-- The transactions of a list that are in a currency. -/
def inCurrency (views : List TransactionView) (c : Currency) : List TransactionView :=
  views.filter fun v => v.currency = c

theorem inCurrency_map (ts : List Transaction) (c : Currency) :
    inCurrency (ts.map ofTransaction) c =
      (ts.filter fun t => t.currency = c).map ofTransaction := by
  rw [inCurrency, List.filter_map]
  rfl

end TransactionView

namespace AccountView

/-- Two views show one account, perhaps at different times: they agree in all but what its balances
have become. -/
structure SameAccount (shown shown' : AccountView) : Prop where
  id : shown.id = shown'.id
  customer : shown.customer = shown'.customer
  country : shown.country = shown'.country
  createdAt : shown.createdAt = shown'.createdAt
  balances : shown.balances.map (fun b => (b.id, b.currency)) =
    shown'.balances.map fun b => (b.id, b.currency)

/-- A list of transactions sums up to the balances of an account. -/
structure SumsUp (shown : AccountView) (views : List TransactionView) : Prop where
  /-- Each transaction tells the sum of those in its currency up to it, from zero on. -/
  running : ∀ c earlier v later, TransactionView.inCurrency views c = earlier ++ v :: later →
    v.balanceAfter.scale = 2 ∧
      v.balanceAfter.toRat = ((earlier ++ [v]).map TransactionView.effect).sum
  bare : ∀ v ∈ views, v.balance = none
  /-- The balances are in the order of the currencies, no two in one currency. -/
  order : shown.balances.Pairwise fun b b' => b.currency.rank < b'.currency.rank
  /-- A balance is what the last transaction in its currency tells, -/
  available : ∀ b ∈ shown.balances, b.available =
    ((TransactionView.inCurrency views b.currency).getLast?.map
      TransactionView.balanceAfter).getD Money.zero
  /-- and its version counts the transactions in its currency. -/
  version : ∀ b ∈ shown.balances,
    b.version = Int64.ofNat (1 + (TransactionView.inCurrency views b.currency).length)
  counted : ∀ b ∈ shown.balances,
    1 + (TransactionView.inCurrency views b.currency).length < 2 ^ 63 →
      b.version.toInt = 1 + (TransactionView.inCurrency views b.currency).length
  held : ∀ v ∈ views, ∃ b ∈ shown.balances, b.currency = v.currency

end AccountView

namespace Ledger

variable {l : Ledger} {id : Identifier} {key : String}

theorem row_of_account? {a : Account} (h : l.account? id = some a) :
    ∃ r ∈ l.accounts, r.id = id ∧ a = r.withBalances (l.balancesOf id) := by
  obtain ⟨r, hr, rfl⟩ := Option.map_eq_some_iff.mp h
  exact ⟨r, List.mem_of_find?_eq_some hr, by simpa using List.find?_some hr, rfl⟩

/-- An account that is held is shown as the account that has been opened. -/
theorem Holds.sameAccount {a shown : Account} (h : l.Holds a) (hlisted : l.Listed)
    (hshown : l.account? a.id = some shown) :
    (AccountView.ofAccount shown).SameAccount (.ofAccount a) := by
  obtain rfl := Option.some.inj ((h.account? hlisted).symm.trans hshown)
  refine ⟨rfl, rfl, rfl, rfl, ?_⟩
  have hfaces := congrArg (List.map fun f : Identifier × Identifier × Currency => (f.1, f.2.2))
    h.faces
  simp only [List.map_map] at hfaces
  simp only [AccountView.ofAccount, AccountRow.withBalances, List.map_map]
  exact hfaces

/-- A transaction is listed once for its account. -/
theorem Listed.filter_views (h : l.Listed) {t : Transaction} (ht : t ∈ l.transactions) :
    ((l.transactionsOf t.accountId).map TransactionView.ofTransaction).filter
      (fun v => v.id = t.id) = [.ofTransaction t] := by
  have hnodup : ((l.transactionsOf t.accountId).map Transaction.id).Nodup :=
    h.transactions.sublist (List.filter_sublist.map _)
  have hmem : t ∈ l.transactionsOf t.accountId := List.mem_filter.mpr ⟨ht, by simp⟩
  have hone := filter_name_eq hnodup hmem
  rw [List.filter_map]
  exact congrArg (List.map _) hone

theorem Commits.mem_transactions {history : List Instruction} {a : Applied}
    (h : l.Commits history key (.applied a)) : a.transaction ∈ (l.after history).transactions := by
  obtain ⟨before, i, after, rfl, -, heffect⟩ := h
  have hserve := (l.after before).serve_effect i
  rw [heffect] at hserve
  rw [after_append]
  refine mem_transactions_after (l := ((l.after before).serve i).2) ?_ after
  rw [hserve.2]
  exact List.mem_append_right _ List.mem_cons_self

/-- The account of a transaction that has been posted has been opened. -/
theorem Commits.opened_account {history : List Instruction} {a : Applied}
    (h : ({} : Ledger).Commits history key (.applied a))
    (hdrawn : ({} : Ledger).DrawsFresh history) :
    ∃ key a', ({} : Ledger).Commits history key (.opened a') ∧
      a.transaction.accountId = a'.id := by
  have hbalanced := (sound_balanced_after hdrawn).2
  obtain ⟨r, hr, howner⟩ := hbalanced.account _ h.mem_transactions
  obtain ⟨key, a', hopened, rfl⟩ := commits_of_row hr
  exact ⟨key, a', hopened, howner.symm⟩

/-- What is listed of an account in the currency of one of its balances are the transactions of that
balance. -/
theorem Balanced.entries_eq (h : l.Balanced) (hsound : l.Sound) {b : Balance}
    (hb : b ∈ l.balances) :
    TransactionView.inCurrency ((l.transactionsOf b.accountId).map .ofTransaction) b.currency =
      (l.movesOf b.id).map .ofTransaction := by
  rw [TransactionView.inCurrency_map, h.movesOf_eq hsound hb]

/-- A transaction that is listed for an account is in the currency of one of its balances. -/
theorem Balanced.exists_balance (h : l.Balanced) {t : Transaction} (ht : t ∈ l.transactionsOf id) :
    ∃ b ∈ l.balances, b.accountId = id ∧ b.currency = t.currency := by
  obtain ⟨hstored, haccount⟩ := List.mem_filter.mp ht
  obtain ⟨b, hb, -, howner, hcurrency⟩ := h.balance t hstored
  exact ⟨b, hb, howner.trans (of_decide_eq_true haccount), hcurrency⟩

theorem Balanced.running_views (h : l.Balanced) (hsound : l.Sound) (hlisted : l.Listed)
    {c : Currency} {earlier later : List TransactionView} {v : TransactionView}
    (hsplit : TransactionView.inCurrency ((l.transactionsOf id).map .ofTransaction) c =
      earlier ++ v :: later) :
    v.balanceAfter.scale = 2 ∧
      v.balanceAfter.toRat = ((earlier ++ [v]).map TransactionView.effect).sum := by
  rw [TransactionView.inCurrency_map] at hsplit
  obtain ⟨moves, rest, hmoves, rfl, hrest⟩ := List.map_eq_append_iff.mp hsplit
  obtain ⟨t, later, rfl, rfl, -⟩ := List.map_eq_cons_iff.mp hrest
  have ht : t ∈ (l.transactionsOf id).filter fun t => t.currency = c := by
    rw [hmoves]
    exact List.mem_append_right _ List.mem_cons_self
  obtain ⟨hmem, hcurrency⟩ := List.mem_filter.mp ht
  obtain ⟨b, hb, rfl, hsame⟩ := h.exists_balance hmem
  obtain rfl := hsame.trans (of_decide_eq_true hcurrency)
  obtain ⟨n, -, hcents⟩ := hlisted.cents t (List.mem_filter.mp hmem).1
  have hrunning := (h.reconciles b hb).running moves t later
    ((h.movesOf_eq hsound hb).trans hmoves)
  constructor
  · change t.balanceAfter.scale = 2
    rw [hcents]
    rfl
  · change t.balanceAfter.toRat = _
    rw [hrunning, ← List.map_singleton, ← List.map_append, List.map_map]
    rfl

/-- What is shown of an account and of its transactions fits. -/
theorem Balanced.sumsUp (h : l.Balanced) (hsound : l.Sound) (hlisted : l.Listed) {a : Account}
    (ha : l.account? id = some a) :
    (AccountView.ofAccount a).SumsUp ((l.transactionsOf id).map .ofTransaction) := by
  obtain ⟨r, -, -, rfl⟩ := row_of_account? ha
  have hshown : ∀ v ∈ (AccountView.ofAccount (r.withBalances (l.balancesOf id))).balances,
      ∃ b ∈ l.balances, b.accountId = id ∧ v = .ofBalance b := by
    intro v hv
    obtain ⟨b, hb, rfl⟩ := List.mem_map.mp hv
    obtain ⟨hstored, howner⟩ := mem_balancesOf.mp hb
    exact ⟨b, hstored, howner, rfl⟩
  refine ⟨fun _ _ _ _ => h.running_views hsound hlisted, ?_,
    List.pairwise_map.mpr (hsound.pairwise_balancesOf id), ?_, ?_, ?_, ?_⟩
  · intro v hv
    obtain ⟨t, -, rfl⟩ := List.mem_map.mp hv
    rfl
  · intro v hv
    obtain ⟨b, hb, rfl, rfl⟩ := hshown v hv
    change b.available = ((TransactionView.inCurrency _ b.currency).getLast?.map _).getD _
    rw [h.entries_eq hsound hb, List.getLast?_map, Option.map_map, h.available_eq hsound hlisted hb]
    rfl
  · intro v hv
    obtain ⟨b, hb, rfl, rfl⟩ := hshown v hv
    change b.version = Int64.ofNat (1 + (TransactionView.inCurrency _ b.currency).length)
    rw [h.entries_eq hsound hb, List.length_map]
    exact (h.reconciles b hb).version
  · intro v hv hroom
    obtain ⟨b, hb, rfl, rfl⟩ := hshown v hv
    change 1 + (TransactionView.inCurrency _ b.currency).length < 2 ^ 63 at hroom
    change b.version.toInt = 1 + ((TransactionView.inCurrency _ b.currency).length : Int)
    rw [h.entries_eq hsound hb, List.length_map] at hroom ⊢
    exact (h.reconciles b hb).toInt_version hroom
  · intro v hv
    obtain ⟨t, ht, rfl⟩ := List.mem_map.mp hv
    obtain ⟨b, hb, howner, hcurrency⟩ := h.exists_balance ht
    exact ⟨.ofBalance b, List.mem_map_of_mem (mem_balancesOf.mpr ⟨hb, howner⟩), hcurrency⟩

end Ledger

namespace Bank

variable {s s' : Bank} {history : List Instruction} {key raw : String} {shown : AccountView}
  {views : List TransactionView}

/-- After a history, a transaction that has been posted in its course is listed once for its
account, -/
theorem transactions_listed (hledger : s.ledger = ({} : Ledger).after history)
    (hdrawn : ({} : Ledger).DrawsFresh history) {a : Applied}
    (hcommits : ({} : Ledger).Commits history key (.applied a))
    (hraw : readAccountId raw = .ok a.transaction.accountId)
    (hviews : (s.transactions raw).1 = .ok views) :
    views.filter (fun v => v.id = a.transaction.id) = [.ofTransaction a.transaction] := by
  obtain ⟨id, owner, hid, -, rfl⟩ := transactions_ok hviews
  cases hraw.symm.trans hid
  rw [hledger]
  exact (Ledger.listed_after hdrawn).filter_views hcommits.mem_transactions

/-- an account that has been opened is shown as that account, -/
theorem account_same (hledger : s.ledger = ({} : Ledger).after history)
    (hdrawn : ({} : Ledger).DrawsFresh history) {a : Account}
    (hcommits : ({} : Ledger).Commits history key (.opened a))
    (hraw : readAccountId raw = .ok a.id) (hshown : (s.account raw).1 = .ok shown) :
    shown.SameAccount (.ofAccount a) := by
  obtain ⟨id, found, hid, hfound, rfl⟩ := account_ok hshown
  cases hraw.symm.trans hid
  rw [hledger] at hfound
  exact (hcommits.holds hdrawn).sameAccount (Ledger.listed_after hdrawn) hfound

/-- no other account is shown, -/
theorem account_opened (hledger : s.ledger = ({} : Ledger).after history)
    (hshown : (s.account raw).1 = .ok shown) :
    ∃ key a, ({} : Ledger).Commits history key (.opened a) ∧ readAccountId raw = .ok a.id := by
  obtain ⟨id, found, hid, hfound, -⟩ := account_ok hshown
  rw [hledger] at hfound
  obtain ⟨r, hr, rfl, -⟩ := Ledger.row_of_account? hfound
  obtain ⟨key, a, hcommits, rfl⟩ := Ledger.commits_of_row hr
  exact ⟨key, a, hcommits, hid⟩

/-- what is shown of an account fits its transactions, -/
theorem account_sumsUp (hledger : s.ledger = ({} : Ledger).after history)
    (hledger' : s'.ledger = ({} : Ledger).after history)
    (hdrawn : ({} : Ledger).DrawsFresh history) (hshown : (s.account raw).1 = .ok shown)
    (hviews : (s'.transactions raw).1 = .ok views) : shown.SumsUp views := by
  obtain ⟨id, found, hid, hfound, rfl⟩ := account_ok hshown
  obtain ⟨id', owner, hid', -, rfl⟩ := transactions_ok hviews
  cases hid.symm.trans hid'
  rw [hledger] at hfound
  rw [hledger']
  obtain ⟨hsound, hbalanced⟩ := Ledger.sound_balanced_after hdrawn
  exact hbalanced.sumsUp hsound (Ledger.listed_after hdrawn) hfound

/-- and a store that does not fail shows every account that has been opened. -/
theorem shown_of_opened (hcalm : s.backend.store.disturbances = .none)
    (hledger : s.ledger = ({} : Ledger).after history)
    (hdrawn : ({} : Ledger).DrawsFresh history) {a : Account}
    (hcommits : ({} : Ledger).Commits history key (.opened a))
    (hraw : readAccountId raw = .ok a.id) :
    (∃ shown, (s.account raw).1 = .ok shown) ∧ ∃ views, (s.transactions raw).1 = .ok views := by
  have hfound := (hcommits.holds hdrawn).account? (Ledger.listed_after hdrawn)
  rw [← hledger] at hfound
  exact shown_of_calm hcalm hraw hfound

end Bank

namespace Network

variable {ι κ : Type} [DecidableEq ι] [DecidableEq κ] {client : κ → Client ι}
  {history later : List Instruction} {n₀ n n' : Network ι κ}

/-- What can be read of accounts at one moment agrees with what callers have been told up to an
earlier one, wherever the store fails meanwhile. -/
structure ReadsAgree (n n' : Network ι κ) (history : List Instruction) : Prop where
  /-- A transaction of which a caller has been told is listed once for its account. -/
  listed : ∀ {who seen view raw d views}, n.errand who = .answered seen (.ok (.transaction view)) →
    readAccountId raw = .ok view.accountId → ((n'.bank.disturb d).transactions raw).1 = .ok views →
    views.filter (fun v => v.id = view.id) = [{ view with balance := none }]
  /-- An account of which a caller has been told is shown as that account, -/
  kept : ∀ {who seen view raw d shown}, n.errand who = .answered seen (.ok (.account view)) →
    readAccountId raw = .ok view.id → ((n'.bank.disturb d).account raw).1 = .ok shown →
    shown.SameAccount view
  /-- and every account that is shown is as it was opened. -/
  opened : ∀ {raw d shown}, ((n'.bank.disturb d).account raw).1 = .ok shown →
    ∃ key a, ({} : Ledger).Commits history key (.opened a) ∧ readAccountId raw = .ok a.id ∧
      shown.SameAccount (.ofAccount a)
  /-- What is shown of an account at one moment sums up. -/
  sumsUp : ∀ {raw d d' shown views}, ((n'.bank.disturb d).account raw).1 = .ok shown →
    ((n'.bank.disturb d').transactions raw).1 = .ok views → shown.SumsUp views
  /-- A store that does not fail shows every account that has been opened, -/
  readable : ∀ {raw key a}, ({} : Ledger).Commits history key (.opened a) →
    readAccountId raw = .ok a.id →
    (∃ shown, ((n'.bank.disturb .none).account raw).1 = .ok shown) ∧
      ∃ views, ((n'.bank.disturb .none).transactions raw).1 = .ok views
  /-- and so every one of which or of whose transactions a caller has been told. -/
  told : ∀ {who seen reply}, n.errand who = .answered seen (.ok reply) →
    ∃ key a, ({} : Ledger).Commits history key (.opened a) ∧
      (match reply with
        | .account view => view.id
        | .transaction view => view.accountId) = a.id

/-- Whatever happens in a network in which nothing had happened: what can be read later agrees with
what callers have been told. -/
theorem Run.reads_agree (hfresh : n₀.Fresh) (hrun : Run client n₀ history n)
    (hlater : Run client n later n')
    (hdraws : ((history ++ later).flatMap fun i => i.draw.identifiers).Nodup) :
    n.ReadsAgree n' (history ++ later) := by
  have hsound := hrun.sound hfresh.sound
  have hsound' := hlater.sound hsound
  rw [List.nil_append] at hsound hsound'
  have hdrawn := Ledger.drawsFresh_of_nodup hdraws
  have hledger : ∀ d, (n'.bank.disturb d).ledger = ({} : Ledger).after (history ++ later) :=
    fun _ => hsound'.ledger
  refine ⟨?_, ?_, ?_, ?_, ?_, ?_⟩
  · intro who seen view raw d views hanswered hraw hviews
    obtain ⟨v, hcommits, -, hreply⟩ := hsound.success hanswered
    cases v with
    | opened a => cases hreply
    | applied a =>
        cases hreply
        exact Bank.transactions_listed (hledger d) hdrawn (hcommits.append later) hraw hviews
  · intro who seen view raw d shown hanswered hraw hshown
    obtain ⟨v, hcommits, -, hreply⟩ := hsound.success hanswered
    cases v with
    | applied a => cases hreply
    | opened a =>
        cases hreply
        exact Bank.account_same (hledger d) hdrawn (hcommits.append later) hraw hshown
  · intro raw d shown hshown
    obtain ⟨key, a, hcommits, hraw⟩ := Bank.account_opened (hledger d) hshown
    exact ⟨key, a, hcommits, hraw, Bank.account_same (hledger d) hdrawn hcommits hraw hshown⟩
  · intro raw d d' shown views hshown hviews
    exact Bank.account_sumsUp (hledger d) (hledger d') hdrawn hshown hviews
  · intro raw key a hcommits hraw
    exact Bank.shown_of_opened rfl (hledger .none) hdrawn hcommits hraw
  · intro who seen reply hanswered
    obtain ⟨v, hcommits, -, rfl⟩ := hsound.success hanswered
    cases v with
    | opened a => exact ⟨_, a, hcommits.append later, rfl⟩
    | applied a => exact (hcommits.append later).opened_account hdrawn

end Network

namespace Sample

/-- The account is opened, a debit is rejected, and the account is filled. -/
def filledLate : List Instruction :=
  refusedSpend ++ [posting .credit 10000 "fill" 12 .none]

theorem outcome_fill : ∃ a : Applied, a.transaction.accountId = identifier 0 ∧
    ((({} : Ledger).after refusedSpend).serve (posting .credit 10000 "fill" 12 .none)).1.outcome =
      .ok (.applied a) :=
  ⟨_, rfl, rfl⟩

/-- The caller who fills the account is told so, and then a copy of the debit is carried out. -/
theorem exists_filledLate : ∃ (n n' : Network Unit (Fin 3)) (seen : Option Resolution)
    (a : Applied), Network.Run customerOf counter filledLate n ∧
      n.errand 2 = .answered seen (.ok (.transaction (.ofApplied a))) ∧
      a.transaction.accountId = identifier 0 ∧
      Network.Run customerOf n [posting .debit 4000 "spend" 18 .none] n' := by
  obtain ⟨n, h⟩ := exists_spendRefused
  obtain ⟨n₁, n', hfilled, hrun, hspent⟩ := h.exists_filled
  have hsound : n.Sound customerOf refusedSpend := h.run.sound fresh_counter.sound
  obtain ⟨a, haccount, houtcome⟩ := outcome_fill
  have hinstruction : n.bank.instruction (posting .credit 10000 "fill" 12 .none).command "fill" =
      posting .credit 10000 "fill" 12 .none := by
    rw [Bank.instruction, h.now, h.supply]
    rfl
  rw [← hinstruction, ← hsound.ledger] at houtcome
  obtain ⟨-, seen, htold⟩ := hfilled.success hsound command_filling houtcome
  exact ⟨n₁, n', seen, a, h.run.trans hrun, htold, haccount, hspent⟩

/-- The list of the account then has the transaction that its caller has been told of, once. -/
theorem reads_agree_filled : ∃ (n n' : Network Unit (Fin 3)) (seen : Option Resolution)
    (a : Applied) (views : List TransactionView),
    Network.Run customerOf counter filledLate n ∧
      n.errand 2 = .answered seen (.ok (.transaction (.ofApplied a))) ∧
      Network.Run customerOf n [posting .debit 4000 "spend" 18 .none] n' ∧
      n.ReadsAgree n' (filledLate ++ [posting .debit 4000 "spend" 18 .none]) ∧
      ((n'.bank.disturb .none).transactions (toString (identifier 0))).1 = .ok views ∧
      views.filter (fun v => v.id = a.transaction.id) = [.ofTransaction a.transaction] := by
  obtain ⟨n, n', seen, a, hrun, htold, haccount, hlater⟩ := exists_filledLate
  have hagree := hrun.reads_agree fresh_counter hlater (by decide)
  have hraw : readAccountId (toString (identifier 0)) = .ok (identifier 0) := rfl
  obtain ⟨key, a', hopened, hid⟩ := hagree.told htold
  have hsame : identifier 0 = a'.id := haccount.symm.trans hid
  obtain ⟨-, views, hviews⟩ := hagree.readable hopened (hraw.trans (congrArg _ hsame))
  exact ⟨n, n', seen, a, views, hrun, htold, hlater, hagree, hviews,
    hagree.listed htold (hraw.trans (congrArg _ haccount.symm)) hviews⟩

end Sample

end KeyedLedger
