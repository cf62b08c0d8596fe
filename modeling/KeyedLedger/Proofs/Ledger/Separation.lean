import KeyedLedger.Proofs.Ledger.Overlooked
import KeyedLedger.Proofs.Ledger.Provenance
import KeyedLedger.Proofs.Ledger.Refinement

/-! # Balances do not interfere

A transaction moves the balance of one account in one currency. Besides that balance it reads
whether the account is there and what is recorded under its key. So in a run of transactions those
that address one balance come out as if the others had not been made, as long as the others used
other keys.

The identifier that is drawn for a transaction shows in its record and nowhere else. Runs are
compared up to what they call the transactions.
-/

namespace KeyedLedger

open Money

/-! ## Renaming transactions -/

section Renaming

variable (name : Identifier → Identifier)

/-- The transaction under another identifier. -/
def Transaction.rename (t : Transaction) : Transaction :=
  { t with id := name t.id }

/-- The transaction under another identifier, with its balance. -/
def Applied.rename (a : Applied) : Applied :=
  { a with transaction := a.transaction.rename name }

/-- The result with its transaction under another identifier. -/
def Result.rename : Result → Result
  | opened a => opened a
  | applied a => applied (a.rename name)

/-- The report with its transaction under another identifier. -/
def Report.rename : Report → Report
  | opened r => opened r
  | applied r => applied (r.map fun a => ⟨a.value.rename name, a.replayed⟩)

theorem Report.effect?_rename (r : Report) :
    (r.rename name).effect? = r.effect?.map (Result.rename name) := by
  rcases r with (_ | ⟨a, _ | _⟩) | (_ | ⟨a, _ | _⟩) <;> rfl

end Renaming

namespace Instruction

/-- The instruction is a transaction of an account in a currency. -/
def addresses (i : Instruction) (account : Identifier) (currency : Currency) : Bool :=
  match i.command with
  | .openAccount _ => false
  | .applyTransaction c => c.accountId = account ∧ c.currency = currency

theorem addresses_eq {i : Instruction} {c : ApplyTransaction}
    (hcommand : i.command = .applyTransaction c) (account : Identifier) (currency : Currency) :
    i.addresses account currency = true ↔ c.accountId = account ∧ c.currency = currency := by
  rw [addresses, hcommand]
  exact decide_eq_true_iff

theorem exists_of_addresses {i : Instruction} {account : Identifier} {currency : Currency}
    (h : i.addresses account currency = true) :
    ∃ c, i.command = .applyTransaction c ∧ c.accountId = account ∧ c.currency = currency := by
  rcases hcommand : i.command with c | c
  · simp [addresses, hcommand] at h
  · exact ⟨c, rfl, (addresses_eq hcommand account currency).mp h⟩

/-- An instruction that is not disturbed has the command, the key and the time of another. What is
drawn for them may differ, but a renaming calls their transactions the same. -/
structure Repeats (name : Identifier → Identifier) (i j : Instruction) : Prop where
  command : j.command = i.command
  key : j.key = i.key
  now : j.now = i.now
  calm : j.disturbances = .none
  named : name j.draw.transaction = name i.draw.transaction

end Instruction

/-! ## The books -/

namespace Books

variable {name : Identifier → Identifier} {b b' : Books} {c : ApplyTransaction} {key : String}
  {now : Timestamp} {draw draw' : Draw}

theorem move_rename (held : Holding) (amount : Nat)
    (hnamed : name draw'.transaction = name draw.transaction) :
    (Report.applied (b.move c held amount key now draw).1).rename name =
      (Report.applied (b'.move c held amount key now draw').1).rename name := by
  rw [move, move]
  cases c.direction.moved? held.cents amount with
  | none => rfl
  | some after =>
      simp only [Report.rename, Except.map, Applied.rename, Transaction.rename, Attempt.record,
        hnamed]

/-- The answer to a transaction depends on what is recorded under its key, on the holding that it
moves and on whether its account holds anything. -/
theorem applyTransaction_rename
    (hresult : (b.result key).map (Result.rename name) = (b'.result key).map (Result.rename name))
    (hheld : b.holding c.accountId c.currency = b'.holding c.accountId c.currency)
    (hopen : (∀ k ∈ Currency.all, (b.holding c.accountId k).isNone = true) ↔
      ∀ k ∈ Currency.all, (b'.holding c.accountId k).isNone = true)
    (hnamed : name draw'.transaction = name draw.transaction) :
    (Report.applied (b.applyTransaction c key now draw).1).rename name =
      (Report.applied (b'.applyTransaction c key now draw').1).rename name := by
  rw [applyTransaction, applyTransaction]
  cases c.amount.cents? with
  | none => rfl
  | some amount =>
  dsimp only
  by_cases hlarge : maxCents < amount
  · rw [if_pos hlarge, if_pos hlarge]
  rw [if_neg hlarge, if_neg hlarge]
  by_cases hlong : 255 < c.description.length
  · rw [if_pos hlong, if_pos hlong]
  rw [if_neg hlong, if_neg hlong]
  cases hr : b.result key with
  | none =>
      have hr' : b'.result key = none := by simpa [hr] using hresult.symm
      rw [hr']
      dsimp only
      rw [post, post, hheld]
      by_cases hnone : ∀ k ∈ Currency.all, (b.holding c.accountId k).isNone = true
      · rw [if_pos hnone, if_pos (hopen.mp hnone)]
      rw [if_neg hnone, if_neg fun hnone' => hnone (hopen.mpr hnone')]
      cases b'.holding c.accountId c.currency with
      | none => rfl
      | some held => exact move_rename held amount hnamed
  | some v =>
      rw [hr, Option.map_some] at hresult
      obtain ⟨v', hr', hv⟩ := Option.map_eq_some_iff.mp hresult.symm
      rw [hr']
      rcases v with a | a <;> rcases v' with a' | a'
      case opened.opened => rfl
      case applied.applied =>
        have hsame : a'.rename name = a.rename name := Result.applied.inj hv
        simp only [Report.rename, Except.map, hsame]
      all_goals cases hv

end Books

namespace Ledger

variable {name : Identifier → Identifier} {account : Identifier} {currency : Currency}
  {keys : String → Prop} {l l' : Ledger} {i j : Instruction}

/-! ## One transaction -/

/-- The transactions of an account in a currency, oldest first. -/
def transactionsIn (l : Ledger) (account : Identifier) (currency : Currency) : List Transaction :=
  (l.transactionsOf account).filter fun t => t.currency = currency

theorem transactionsIn_posted {a : Applied} (key : String) (now : Timestamp) :
    (l.posted a key now).transactionsIn account currency =
      l.transactionsIn account currency ++
        if a.transaction.accountId = account ∧ a.transaction.currency = currency then
          [a.transaction] else [] := by
  simp only [transactionsIn, transactionsOf, posted, List.filter_filter, List.filter_append,
    List.filter_singleton]
  congr 1
  by_cases haccount : a.transaction.accountId = account <;>
    by_cases hcurrency : a.transaction.currency = currency <;> simp [haccount, hcurrency]

/-- Two ledgers have the same balance of an account in a currency, and up to the identifiers of the
transactions, the same transactions of it and the same results under the given keys. -/
structure Alike (name : Identifier → Identifier) (account : Identifier) (currency : Currency)
    (keys : String → Prop) (l l' : Ledger) : Prop where
  sound : l.Sound ∧ l'.Sound
  documented : l.Documented ∧ l'.Documented
  accounts : l.accounts = l'.accounts
  balance : l.balance? account currency = l'.balance? account currency
  transactions : (l.transactionsIn account currency).map (Transaction.rename name) =
    (l'.transactionsIn account currency).map (Transaction.rename name)
  result : ∀ key, keys key → (l.books.result key).map (Result.rename name) =
    (l'.books.result key).map (Result.rename name)

theorem Alike.refl (hsound : l.Sound) (hdocumented : l.Documented) :
    Alike name account currency keys l l :=
  ⟨⟨hsound, hsound⟩, ⟨hdocumented, hdocumented⟩, rfl, rfl, rfl, fun _ _ => rfl⟩

theorem account?_eq_none_congr (haccounts : l.accounts = l'.accounts) (id : Identifier) :
    l.account? id = none ↔ l'.account? id = none := by
  rw [account?, account?, haccounts, Option.map_eq_none_iff, Option.map_eq_none_iff]

/-- What posting a transaction does to a balance, to its transactions and to the results. -/
theorem Sound.pair_posted {c : ApplyTransaction} {a : Applied} {key : String} {now : Timestamp}
    {draw : Draw} (hsound : l.Sound) (hposts : l.Posts c key now draw a)
    (hnow : Timestamp.yearInRange now.date.year = true) (account : Identifier)
    (currency : Currency) :
    (l.posted a key now).balance? account currency =
        (if c.accountId = account ∧ c.currency = currency then some a.balance
        else l.balance? account currency) ∧
      (l.posted a key now).transactionsIn account currency =
        (l.transactionsIn account currency ++
          if c.accountId = account ∧ c.currency = currency then [a.transaction] else []) ∧
      (l.posted a key now).books.result =
        Function.update l.books.result key (some (.applied a)) := by
  obtain ⟨current, available, amount, after, hmoves⟩ := hsound.cents.moves hposts
  have haccount : a.transaction.accountId = c.accountId := by rw [hmoves.transaction]; rfl
  have hcurrency : a.transaction.currency = c.currency := by rw [hmoves.transaction]; rfl
  refine ⟨?_, ?_, ?_⟩
  · rw [hsound.balance?_posted hmoves]
    simp only [eq_comm]
  · rw [transactionsIn_posted, haccount, hcurrency]
  · rw [hsound.books_posted hposts.unrecorded hmoves hnow]
    rfl

/-- A transaction that addresses another balance under another key changes nothing that the balance
is compared by. -/
theorem Alike.skip (h : Alike name account currency keys l l') {c : ApplyTransaction}
    (hcommand : i.command = .applyTransaction c)
    (hother : ¬ i.addresses account currency = true) (hkey : ¬ keys i.key)
    (hclock : Timestamp.yearInRange i.now.date.year = true) :
    Alike name account currency keys (l.serve i).2 l' := by
  rcases apply_cases hcommand with ⟨-, hsame⟩ | ⟨a, -, hposts, hafter⟩
  · rw [hsame]
    exact h
  · rw [Instruction.addresses_eq hcommand] at hother
    obtain ⟨hbalance, htransactions, hresult⟩ :=
      h.sound.1.pair_posted hposts hclock account currency
    rw [if_neg hother] at hbalance htransactions
    rw [List.append_nil] at htransactions
    rw [hafter]
    refine ⟨⟨h.sound.1.posted hposts, h.sound.2⟩,
      ⟨h.documented.1.posted h.sound.1.cents hposts hclock, h.documented.2⟩, h.accounts,
      hbalance.trans h.balance, ?_, fun key hown => ?_⟩
    · rw [htransactions]
      exact h.transactions
    · have hne : key ≠ i.key := fun hsame => hkey (hsame ▸ hown)
      rw [hresult, Function.update_of_ne hne]
      exact h.result key hown

/-- A transaction that addresses the balance is answered alike, and leaves what is alike. -/
theorem Alike.serve (h : Alike name account currency keys l l')
    (hown : i.addresses account currency = true) (hkey : keys i.key)
    (hclock : Timestamp.yearInRange i.now.date.year = true) (hcalm : i.disturbances = .none)
    (hrepeats : i.Repeats name j) :
    (l.serve i).1.rename name = (l'.serve j).1.rename name ∧
      Alike name account currency keys (l.serve i).2 (l'.serve j).2 := by
  obtain ⟨c, hcommand, rfl, rfl⟩ := Instruction.exists_of_addresses hown
  have hcommand' : j.command = .applyTransaction c := hrepeats.command.trans hcommand
  have hclock' : Timestamp.yearInRange j.now.date.year = true := by rwa [hrepeats.now]
  have hanswers : (l.serve i).1.rename name = (l'.serve j).1.rename name := by
    have hserve := congrArg Prod.fst (h.sound.1.books_apply h.documented.1 hcommand hclock hcalm)
    have hserve' := congrArg Prod.fst
      (h.sound.2.books_apply h.documented.2 hcommand' hclock' hrepeats.calm)
    dsimp only at hserve hserve'
    rw [hserve, hserve', Books.serve, Books.serve, hcommand, hcommand', hrepeats.key, hrepeats.now]
    apply Books.applyTransaction_rename (h.result _ hkey) _ _ hrepeats.named
    · change (l.balance? _ _).map _ = (l'.balance? _ _).map _
      rw [h.balance]
    · rw [← h.sound.1.account?_eq_none_iff, ← h.sound.2.account?_eq_none_iff]
      exact account?_eq_none_congr h.accounts _
  refine ⟨hanswers, ?_⟩
  have heffects := congrArg Report.effect? hanswers
  rw [Report.effect?_rename, Report.effect?_rename] at heffects
  rcases apply_cases (l := l) hcommand with ⟨hnone, hsame⟩ | ⟨a, hsome, hposts, hafter⟩ <;>
    rcases apply_cases (l := l') hcommand' with ⟨hnone', hsame'⟩ | ⟨a', hsome', hposts', hafter'⟩
  · rw [hsame, hsame']
    exact h
  · simp [hnone, hsome'] at heffects
  · simp [hsome, hnone'] at heffects
  · -- Both post, and what they post differs in the identifier of the transaction at most.
    have happlied : a.rename name = a'.rename name := by
      rw [hsome, hsome', Option.map_some, Option.map_some] at heffects
      exact Result.applied.inj (Option.some.inj heffects)
    obtain ⟨htransaction, hbalances⟩ :
        a.transaction.rename name = a'.transaction.rename name ∧ a.balance = a'.balance := by
      simpa only [Applied.rename, Applied.mk.injEq] using happlied
    obtain ⟨hbalance, htransactions, hresult⟩ :=
      h.sound.1.pair_posted hposts hclock c.accountId c.currency
    obtain ⟨hbalance', htransactions', hresult'⟩ :=
      h.sound.2.pair_posted hposts' hclock' c.accountId c.currency
    rw [if_pos ⟨rfl, rfl⟩] at hbalance hbalance' htransactions htransactions'
    rw [hafter, hafter']
    refine ⟨⟨h.sound.1.posted hposts, h.sound.2.posted hposts'⟩,
      ⟨h.documented.1.posted h.sound.1.cents hposts hclock,
        h.documented.2.posted h.sound.2.cents hposts' hclock'⟩,
      h.accounts, ?_, ?_, fun key hown => ?_⟩
    · rw [hbalance, hbalance', hbalances]
    · rw [htransactions, htransactions', List.map_append, List.map_append, h.transactions,
        List.map_singleton, List.map_singleton, htransaction]
    · rw [hresult, hresult', hrepeats.key]
      by_cases hsame : key = i.key
      · rw [hsame, Function.update_self, Function.update_self]
        exact congrArg (fun a => some (Result.applied a)) happlied
      · rw [Function.update_of_ne hsame, Function.update_of_ne hsame]
        exact h.result key hown

/-! ## A run of transactions -/

/-- What those transactions of a run are answered that address a balance. -/
def reportsIn (l : Ledger) (account : Identifier) (currency : Currency) (run : List Instruction) :
    List Report :=
  ((run.zip (l.reports run)).filter fun served => served.1.addresses account currency).map Prod.snd

theorem reportsIn_cons (run : List Instruction) :
    l.reportsIn account currency (i :: run) =
      if i.addresses account currency then
        (l.serve i).1 :: (l.serve i).2.reportsIn account currency run
      else (l.serve i).2.reportsIn account currency run := by
  rw [reportsIn, reports, List.zip_cons_cons, List.filter_cons]
  split <;> rfl

/-- A run consists of transactions. Those that address a balance are not disturbed, and have no key
in common with the others. -/
structure Separate (account : Identifier) (currency : Currency) (run : List Instruction) :
    Prop where
  applies : ∀ i ∈ run, ∃ c, i.command = .applyTransaction c
  timed : Timed run
  calm : ∀ i ∈ run, i.addresses account currency = true → i.disturbances = .none
  keys : ∀ i ∈ run, ∀ j ∈ run, i.addresses account currency = true →
    j.addresses account currency = false → i.key ≠ j.key

theorem Separate.tail {run : List Instruction} (h : Separate account currency (i :: run)) :
    Separate account currency run :=
  ⟨fun j hj => h.applies j (List.mem_cons_of_mem _ hj),
    fun j hj => h.timed j (List.mem_cons_of_mem _ hj),
    fun j hj => h.calm j (List.mem_cons_of_mem _ hj),
    fun j hj k hk => h.keys j (List.mem_cons_of_mem _ hj) k (List.mem_cons_of_mem _ hk)⟩

/-- Of a run, the transactions that address the balance are answered as when they come alone, and
the ledgers are alike at the end. -/
theorem Alike.run {run alone : List Instruction} (h : Alike name account currency keys l l')
    (hseparate : Separate account currency run)
    (hkeys : ∀ i ∈ run, i.addresses account currency = true ↔ keys i.key)
    (halone : (run.filter fun i => i.addresses account currency).Forall₂
      (Instruction.Repeats name) alone) :
    (l.reportsIn account currency run).map (Report.rename name) =
        (l'.reports alone).map (Report.rename name) ∧
      Alike name account currency keys (l.after run) (l'.after alone) := by
  -- Each step is either matched by the shorter run or skipped by it.
  induction run generalizing l l' alone with
  | nil =>
      cases halone
      exact ⟨rfl, h⟩
  | cons i rest ih =>
      have hclock := hseparate.timed i List.mem_cons_self
      have hrest := fun j hj => hkeys j (List.mem_cons_of_mem _ hj)
      have hkey := hkeys i List.mem_cons_self
      rw [reportsIn_cons]
      by_cases hown : i.addresses account currency = true
      · rw [List.filter_cons, if_pos hown] at halone
        rw [if_pos hown]
        rcases halone with _ | ⟨hrepeats, halone⟩
        obtain ⟨hanswers, hserved⟩ := h.serve hown (hkey.mp hown) hclock
          (hseparate.calm i List.mem_cons_self hown) hrepeats
        obtain ⟨hreports, hend⟩ := ih hserved hseparate.tail hrest halone
        exact ⟨congrArg₂ List.cons hanswers hreports, hend⟩
      · rw [List.filter_cons, if_neg hown] at halone
        rw [if_neg hown]
        obtain ⟨c, hcommand⟩ := hseparate.applies i List.mem_cons_self
        have hskipped := h.skip hcommand hown (fun hforeign => hown (hkey.mpr hforeign)) hclock
        exact ih hskipped hseparate.tail hrest halone

/-- On every ledger that a history has left, those transactions of a run that address one balance
are answered as if the others were not there, and so come to the same balance with the same
history. -/
theorem run_separates {past run alone : List Instruction} (account : Identifier)
    (currency : Currency) (hfresh : ({} : Ledger).DrawsFresh past) (htimed : Timed past)
    (hseparate : Separate account currency run) (name : Identifier → Identifier)
    (halone : (run.filter fun i => i.addresses account currency).Forall₂
      (Instruction.Repeats name) alone) :
    ((({} : Ledger).after past).reportsIn account currency run).map (Report.rename name) =
        ((({} : Ledger).after past).reports alone).map (Report.rename name) ∧
      (({} : Ledger).after (past ++ run)).balance? account currency =
        (({} : Ledger).after (past ++ alone)).balance? account currency ∧
      ((({} : Ledger).after (past ++ run)).transactionsIn account currency).map
          (Transaction.rename name) =
        ((({} : Ledger).after (past ++ alone)).transactionsIn account currency).map
          (Transaction.rename name) := by
  obtain ⟨hsound, hdocumented⟩ := sound_empty.documented_after documented_empty hfresh htimed
  let keys : String → Prop := fun key =>
    ∃ i ∈ run, i.addresses account currency = true ∧ i.key = key
  have hkeys : ∀ i ∈ run, i.addresses account currency = true ↔ keys i.key := by
    intro j hj
    refine ⟨fun hown => ⟨j, hj, hown, rfl⟩, fun ⟨i, hi, hown, hkey⟩ => ?_⟩
    by_contra hother
    exact hseparate.keys i hi j hj hown (eq_false_of_ne_true hother) hkey
  have hstart : Alike name account currency keys (({} : Ledger).after past)
      (({} : Ledger).after past) := .refl hsound hdocumented
  obtain ⟨hreports, hend⟩ := hstart.run hseparate hkeys halone
  rw [after_append, after_append]
  exact ⟨hreports, hend.balance, hend.transactions⟩

end Ledger

namespace Sample

/-- An account in euros and in kronor is opened. -/
def pockets : Instruction :=
  { opening with command := .openAccount ⟨customer, country, [.eur, .sek]⟩ }

/-- Kronor are put aside in that account. -/
def saving (cents : Nat) (key : String) (n : Nat) : Instruction :=
  { posting .credit cents key n .none with
    command := .applyTransaction ⟨identifier 0, ofCents cents, .sek, .credit, "aside"⟩ }

/-- Euros are received and spent, the latter twice under one key, and kronor put aside meanwhile. -/
def household : List Instruction :=
  [posting .credit 10000 "fill" 6 .none, saving 500 "first" 12,
    posting .debit 4000 "spend" 18 .none, saving 700 "second" 24,
    posting .debit 4000 "spend" 30 .none]

/-- The same euros are received and spent, with other draws. -/
def euros : List Instruction :=
  [posting .credit 10000 "fill" 36 .none, posting .debit 4000 "spend" 42 .none,
    posting .debit 4000 "spend" 48 .none]

theorem separate_household : Ledger.Separate (identifier 0) .eur household := by
  refine ⟨?_, by unfold Ledger.Timed; decide, ?_, by decide⟩ <;>
    simp [household, posting, saving]

theorem run_separates_household :
    ((({} : Ledger).after [pockets]).reportsIn (identifier 0) .eur household).map
          (Report.rename fun _ => .nil) =
        ((({} : Ledger).after [pockets]).reports euros).map (Report.rename fun _ => .nil) ∧
      (({} : Ledger).after ([pockets] ++ household)).balance? (identifier 0) .eur =
        (({} : Ledger).after ([pockets] ++ euros)).balance? (identifier 0) .eur ∧
      ((({} : Ledger).after ([pockets] ++ household)).transactionsIn (identifier 0) .eur).map
          (Transaction.rename fun _ => .nil) =
        ((({} : Ledger).after ([pockets] ++ euros)).transactionsIn (identifier 0) .eur).map
          (Transaction.rename fun _ => .nil) := by
  refine Ledger.run_separates (identifier 0) .eur (Ledger.drawsFresh_of_nodup (by decide))
    (by unfold Ledger.Timed; decide) separate_household (fun _ => .nil) ?_
  exact .cons ⟨rfl, rfl, rfl, rfl, rfl⟩ (.cons ⟨rfl, rfl, rfl, rfl, rfl⟩
    (.cons ⟨rfl, rfl, rfl, rfl, rfl⟩ .nil))

end Sample

end KeyedLedger
