import KeyedLedger.Proofs.Ledger.Replay

/-! # The effects of instructions

An instruction that is answered with a new value has that value for its effect; every other answer,
be it an error or a recorded result, comes with no change of the ledger. An effect is all or
nothing: the ledger gains the rows of the value and one receipt, and no other row is touched, from
whatever ledger the instruction starts and wherever the store fails.
-/

namespace KeyedLedger

/-- The new value of a report; a value that has been recorded before is none. -/
def Report.effect? : Report → Option Result
  | opened (.ok ⟨a, false⟩) => some (.opened a)
  | applied (.ok ⟨a, false⟩) => some (.applied a)
  | _ => none

namespace Ledger

/-- One ledger is another with an account opened under a key: it has one more account, the balances
of that account and one more receipt. -/
structure GainsAccount (l l' : Ledger) (a : Account) (key : String) : Prop where
  accounts : l'.accounts = l.accounts ++ [a.row]
  balances : l'.balances = l.balances ++ a.balances
  transactions : l'.transactions = l.transactions
  receipts : ∃ r, l'.receipts = l.receipts ++ [r] ∧ r.key = key ∧
    r.requestType = RequestType.openAccount.code

/-- One ledger is another with a transaction applied under a key: it has one more transaction and
one more receipt, and the balance that the transaction names is another in what is available, in its
version and in its time. -/
structure GainsTransaction (l l' : Ledger) (a : Applied) (key : String) : Prop where
  accounts : l'.accounts = l.accounts
  balances : ∃ first b rest, l.balances = first ++ b :: rest ∧
    l'.balances = first ++ a.balance :: rest ∧
    a.balance = { b with
      available := a.balance.available
      version := a.balance.version
      updatedAt := a.balance.updatedAt }
  named : a.transaction.balanceId = a.balance.id
  transactions : l'.transactions = l.transactions ++ [a.transaction]
  receipts : ∃ r, l'.receipts = l.receipts ++ [r] ∧ r.key = key ∧
    r.requestType = RequestType.applyTransaction.code

variable {l : Ledger} {key : String} {now : Timestamp} {draw : Draw}

theorem upsert_append_cons {α κ : Type} [DecidableEq κ] {name : α → κ} {row r : α}
    {first rest : List α} (hfirst : ∀ s ∈ first, name s ≠ name row) (hr : name r = name row) :
    upsert name row (first ++ r :: rest) = first ++ row :: rest := by
  induction first with
  | nil => rw [List.nil_append, upsert, if_pos hr, List.nil_append]
  | cons s first ih =>
      rw [List.cons_append, upsert, if_neg (hfirst s List.mem_cons_self),
        ih fun t ht => hfirst t (List.mem_cons_of_mem _ ht), List.cons_append]

theorem Opens.gains {c : OpenAccount} {a : Account} (hopens : l.Opens c key now draw a)
    (hfresh : draw.Fresh l) : l.GainsAccount (l.opened a key now) a key :=
  ⟨hopens.accounts_of_fresh hfresh, hopens.balances_of_fresh hfresh, rfl, _, rfl, rfl, rfl⟩

/-- What is posted is recorded under its key, and names the balance that it leaves. -/
theorem Posts.record {c : ApplyTransaction} {a : Applied} (hposts : l.Posts c key now draw a) :
    a.transaction.key = key ∧ a.transaction.balanceId = a.balance.id ∧
      a.transaction.balanceAfter = a.balance.available := by
  obtain ⟨amount, current, -, -, -, hrecord⟩ := hposts.moved
  rw [hrecord]
  exact ⟨rfl, rfl, rfl⟩

theorem Posts.gains {c : ApplyTransaction} {a : Applied} (hposts : l.Posts c key now draw a)
    (hnodup : (l.balances.map Balance.id).Nodup) :
    l.GainsTransaction (l.posted a key now) a key := by
  obtain ⟨amount, current, -, hcurrent, hmove, -⟩ := hposts.moved
  obtain ⟨available, hbalance⟩ := Balance.eq_of_move hmove
  obtain ⟨first, rest, hsplit⟩ := List.append_of_mem (List.mem_of_find?_eq_some hcurrent)
  have hid : current.id = a.balance.id := by rw [hbalance]
  -- No balance in front of the one that is moved has its identifier.
  have hfirst : ∀ b ∈ first, b.id ≠ a.balance.id := by
    rw [hsplit, List.map_append, List.nodup_append] at hnodup
    intro b hb
    rw [← hid]
    exact hnodup.2.2 _ (List.mem_map_of_mem hb) _ List.mem_cons_self
  refine ⟨rfl, ⟨first, current, rest, hsplit, ?_, ?_⟩, hposts.record.2.1, rfl, _, rfl, rfl, rfl⟩
  · rw [posted, hsplit]
    exact upsert_append_cons hfirst hid
  · rw [hbalance]

/-- What an instruction does to the ledger, by its effect. -/
theorem serve_effect (l : Ledger) (i : Instruction) :
    match (l.serve i).1.effect? with
    | none => (l.serve i).2 = l
    | some (.opened a) => (∃ c, l.Opens c i.key i.now i.draw a) ∧
        (l.serve i).2 = l.opened a i.key i.now
    | some (.applied a) => (∃ c, l.Posts c i.key i.now i.draw a) ∧
        (l.serve i).2 = l.posted a i.key i.now := by
  rcases i with ⟨c | c, key, now, draw, d⟩
  · rw [serve_openAccount]
    rcases (l.under d).openAccount_ledger c key now draw with ⟨hsame, hrecorded⟩ |
      ⟨a, hok, hopens, hafter⟩
    · rcases hanswer : ((l.under d).openAccount c key now draw).1 with e | ⟨a, _ | _⟩
      · exact hsame
      · cases replayed_of_recorded (hrecorded _ hanswer)
      · exact hsame
    · rw [hok]
      exact ⟨⟨c, hopens⟩, hafter⟩
  · rw [serve_applyTransaction]
    rcases (l.under d).applyTransaction_ledger c key now draw with ⟨hsame, hrecorded⟩ |
      ⟨a, hok, hposts, hafter⟩
    · rcases hanswer : ((l.under d).applyTransaction c key now draw).1 with e | ⟨a, _ | _⟩
      · exact hsame
      · cases replayed_of_recorded (hrecorded _ hanswer)
      · exact hsame
    · rw [hok]
      exact ⟨⟨c, hposts⟩, hafter⟩

theorem posts_of_serve {i : Instruction} {c : ApplyTransaction} {a : Applied}
    (hcommand : i.command = .applyTransaction c)
    (happlied : (l.serve i).1 = .applied (.ok ⟨a, false⟩)) :
    l.Posts c i.key i.now i.draw a ∧ (l.serve i).2 = l.posted a i.key i.now := by
  rcases i with ⟨command, key, now, draw, d⟩
  cases hcommand
  rw [serve_applyTransaction, Report.applied.injEq] at happlied
  rcases (l.under d).applyTransaction_ledger c key now draw with ⟨-, hrecorded⟩ |
    ⟨b, hok, hposts, hafter⟩
  · exact absurd (replayed_of_recorded (hrecorded _ happlied)) Bool.false_ne_true
  · cases hok.symm.trans happlied
    exact ⟨hposts, hafter⟩

/-- On any ledger whose balances are stored under identifiers of their own, and wherever the store
fails, an instruction has the whole of its effect or none: an error and a recorded result leave the
ledger as it was, a new account comes with its balances and one receipt, and a new transaction with
its balance and one receipt. -/
theorem serve_all_or_nothing (hnodup : (l.balances.map Balance.id).Nodup) {i : Instruction}
    (hfresh : i.draw.Fresh l) :
    match (l.serve i).1.effect? with
    | none => (l.serve i).2 = l
    | some (.opened a) => l.GainsAccount (l.serve i).2 a i.key
    | some (.applied a) => l.GainsTransaction (l.serve i).2 a i.key := by
  have heffect := l.serve_effect i
  rcases hanswer : (l.serve i).1.effect? with _ | a | a
  · rw [hanswer] at heffect
    exact heffect
  · rw [hanswer] at heffect
    obtain ⟨⟨c, hopens⟩, hafter⟩ := heffect
    dsimp only
    rw [hafter]
    exact hopens.gains hfresh
  · rw [hanswer] at heffect
    obtain ⟨⟨c, hposts⟩, hafter⟩ := heffect
    dsimp only
    rw [hafter]
    exact hposts.gains hnodup

end Ledger

namespace Sample

/-- A ledger that no history leaves: its account has two balances, of which no receipt and no
transaction tells. -/
def stray : Ledger where
  accounts := [⟨identifier 0, customer, country, .start2025, .start2025⟩]
  balances := [⟨identifier 1, identifier 0, .sek, Money.ofCents 700, 9, .start2025⟩,
    ⟨identifier 2, identifier 0, .eur, Money.ofCents 500, 4, .start2025⟩]

/-- The debit of its second balance. -/
def strayApplied : Applied :=
  let balance : Balance := ⟨identifier 2, identifier 0, .eur, Money.ofCents 200, 5, .start2025⟩
  let command : ApplyTransaction := ⟨identifier 0, Money.ofCents 300, .eur, .debit, "rent"⟩
  ⟨Attempt.record command (Money.ofCents 300) balance "spend" .start2025 (draw 6), balance⟩

theorem fresh_stray : (draw 6).Fresh stray := by
  have hnamed : stray.NamedFrom [identifier 0, identifier 1, identifier 2] :=
    ⟨by decide, by decide, by decide⟩
  exact hnamed.fresh (by decide)

theorem serve_all_or_nothing_stray :
    stray.GainsTransaction (stray.serve (posting .debit 300 "spend" 6 .none)).2 strayApplied
        "spend" ∧
      (stray.serve (posting .debit 300 "spend" 6 (.once .commit (.fails (.duplicate ""))))).2 =
        stray :=
  ⟨Ledger.serve_all_or_nothing (by decide) (i := posting .debit 300 "spend" 6 .none) fresh_stray,
    Ledger.serve_all_or_nothing (by decide)
      (i := posting .debit 300 "spend" 6 (.once .commit (.fails (.duplicate "")))) fresh_stray⟩

end Sample

end KeyedLedger
