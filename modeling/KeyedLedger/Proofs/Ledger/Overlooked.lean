import KeyedLedger.Proofs.Ledger.Conservation
import KeyedLedger.Proofs.Ledger.Effects

/-! # A duplicate that overlooks the record

A duplicate may look for the record of its key before the first copy has committed it. It is then
carried out up to the point at which its key turns out to be taken, and only there given the
recorded result. The move is tried before the key, on a balance that the first copy has moved
already: so the duplicate is answered as a replay exactly when the balance admits the move once
more, and is refused like a new command otherwise.
-/

namespace KeyedLedger

open Money

variable {α : Type}

/-- The first receipt that is looked for is overlooked, and nothing else goes wrong. -/
structure Disturbances.OverlooksFirst (d : Disturbances) : Prop where
  first : d [.receipt, .begin] = some .overlooks
  fails : ¬ d.Fails
  again : ¬ d.OverlooksAgain

theorem Disturbances.overlooksFirst_once : (once .receipt .overlooks).OverlooksFirst :=
  ⟨rfl, not_fails_overlooks _, not_overlooksAgain_once _⟩

theorem Store.found_of_overlooks {s : Store} (hd : s.disturbances.OverlooksFirst)
    (hcalls : s.calls = []) (key : String) (type : RequestType) (shape : Shape α) :
    s.found key type shape = .ok none := by
  rw [found, hcalls, hd.first]

namespace Ledger

variable {l : Ledger} {key : String} {now : Timestamp} {draw : Draw}

theorem mem_transactions_after {t : Transaction} (h : t ∈ l.transactions)
    (history : List Instruction) : t ∈ (l.after history).transactions := by
  apply after_of_serve (P := fun l => t ∈ l.transactions) _ h
  intro l i h
  apply serve_induction (P := fun l => t ∈ l.transactions) h
  · intro c a _
    exact h
  · intro c a _
    exact List.mem_append_left _ h

/-- On a ledger that has posted the transaction of a command, the command fails as a duplicate if
the balance admits its move once more, and is refused if not. -/
theorem Sound.posting_again (hsound : l.Sound) {c : ApplyTransaction} {owner : Account}
    {current : Balance} {available amount : Nat} {t : Transaction}
    (ht : t ∈ l.transactions) (hkey : t.key = key) (howner : l.account? c.accountId = some owner)
    (hcurrent : l.balance? c.accountId c.currency = some current)
    (havailable : current.available = ofCents available) (havailable_le : available ≤ maxCents)
    (hamount : amount ≤ maxCents) :
    c.posting (ofCents amount) key now draw l =
      match c.direction.moved? available amount with
      | none => .error (.refused (c.direction.refusal current.available (ofCents amount)))
      | some _ => .error (.store (.duplicate key)) := by
  rw [hsound.posting_eq howner hcurrent havailable havailable_le hamount]
  cases c.direction.moved? available amount with
  | none => rfl
  | some after => exact if_neg fun hunused => hunused.1 t ht hkey

/-- What a duplicate is answered that overlooks the record of its key: the recorded result if its
balance admits the move, the refusal of the move if not. -/
def duplicateAnswer (c : ApplyTransaction) (available amount : Nat) (a : Applied) :
    Except LedgerError (Answer Applied) :=
  match c.direction.moved? available amount with
  | some _ => .ok ⟨a, true⟩
  | none => .error (.refused (c.direction.refusal (ofCents available) (ofCents amount)))

theorem Sound.serve_duplicate (hsound : l.Sound) {c : ApplyTransaction} {a : Applied}
    {owner : Account} {current : Balance} {available amount : Nat} {t : Transaction}
    (hrecords : l.Records key (.applied a)) (ht : t ∈ l.transactions) (hkey : t.key = key)
    (hvalid : Money.validate c.amount = .ok (ofCents amount)) (hamount : amount ≤ maxCents)
    (hdescribed : checkDescription c.description = .ok ())
    (howner : l.account? c.accountId = some owner)
    (hcurrent : l.balance? c.accountId c.currency = some current)
    (havailable : current.available = ofCents available) (havailable_le : available ≤ maxCents) :
    l.serve ⟨.applyTransaction c, key, now, draw, .once .receipt .overlooks⟩ =
      (.applied (duplicateAnswer c available amount a), l) := by
  have hrecorded : l.recorded key .applyTransaction Applied.shape = .ok (some ⟨a, true⟩) := hrecords
  have hplan : c.plan (.ok none) key now draw l = c.posting (ofCents amount) key now draw l := by
    rw [ApplyTransaction.plan_apply, hvalid, hdescribed]
    rfl
  let s := l.under (.once .receipt .overlooks)
  have hd : s.disturbances.OverlooksFirst := Disturbances.overlooksFirst_once
  have hends := (s.applyTransaction_cases c key now draw).ends hd.fails hd.again
  rw [Store.found_of_overlooks hd rfl] at hends
  change Attempt.Ends (Plan.orRecorded (c.plan (.ok none) key now draw l) _ _ _ l) l _ _ at hends
  rw [hplan, hsound.posting_again ht hkey howner hcurrent havailable havailable_le hamount] at hends
  rw [serve_applyTransaction, duplicateAnswer]
  cases hmoved : c.direction.moved? available amount with
  | none =>
      rw [hmoved, havailable] at hends
      exact Prod.ext (congrArg Report.applied hends.1) hends.2
  | some after =>
      rw [hmoved] at hends
      simp only [Plan.orRecorded, hrecorded, Plan.unless] at hends
      exact Prod.ext (congrArg Report.applied hends.1) hends.2

/-- A duplicate of an applied transaction that overlooks the record changes nothing. It is answered
with the recorded result if its balance admits the move once more, and refused if not. -/
theorem serve_overlooked {before later : List Instruction} {i : Instruction} {c : ApplyTransaction}
    {a : Applied} (hfresh : ({} : Ledger).DrawsFresh (before ++ i :: later))
    (hclock : Timestamp.yearInRange i.now.date.year = true)
    (hcommand : i.command = .applyTransaction c)
    (happlied : ((({} : Ledger).after before).serve i).1 = .applied (.ok ⟨a, false⟩))
    (now : Timestamp) (draw : Draw) :
    ∃ b available amount,
      (({} : Ledger).after (before ++ i :: later)).balance? c.accountId c.currency = some b ∧
      b.available = ofCents available ∧ c.amount.cents? = some amount ∧
      (({} : Ledger).after (before ++ i :: later)).serve
          ⟨.applyTransaction c, i.key, now, draw, .once .receipt .overlooks⟩ =
        (.applied (duplicateAnswer c available amount a),
          ({} : Ledger).after (before ++ i :: later)) := by
  obtain ⟨hposts, hposted⟩ := posts_of_serve hcommand happlied
  obtain ⟨first, held, amount, left, hmoves⟩ := (inCents_after before).moves hposts
  have hvalid : Money.validate c.amount = .ok (ofCents amount) := by
    rw [validate_eq, hmoves.amount_eq]
    exact if_neg (Nat.not_lt.mpr hmoves.amount_le)
  -- The record and the transaction of the first copy are still there.
  obtain ⟨hrecords, ht⟩ : (({} : Ledger).after (before ++ i :: later)).Records i.key (.applied a) ∧
      a.transaction ∈ (({} : Ledger).after (before ++ i :: later)).transactions := by
    have hnew := recorded_posted (inCents_after before) hposts hclock
    have hmem : a.transaction ∈ ((({} : Ledger).after before).posted a i.key i.now).transactions :=
      List.mem_append_right _ List.mem_cons_self
    rw [← hposted] at hnew hmem
    rw [after_append]
    exact ⟨hnew.after later, mem_transactions_after hmem later⟩
  obtain ⟨hsound, hbalanced⟩ := sound_balanced_after hfresh
  generalize ({} : Ledger).after (before ++ i :: later) = l at *
  -- So its account and a balance in its currency are there.
  obtain ⟨owner, b, howner, hb⟩ := hbalanced.found ht
  have hnamed : a.transaction.key = i.key ∧ a.transaction.accountId = c.accountId ∧
      a.transaction.currency = c.currency := by
    rw [hmoves.transaction]
    exact ⟨rfl, rfl, rfl⟩
  rw [hnamed.2.1] at howner hb
  rw [hnamed.2.2] at hb
  obtain ⟨available, havailable, hcents⟩ := hsound.cents b (stored_of_balance? hb).1
  exact ⟨b, available, amount, hb, hcents, hmoves.amount_eq, hsound.serve_duplicate hrecords ht
    hnamed.1 hvalid hmoves.amount_le hposts.described howner hb hcents havailable⟩

end Ledger

namespace Sample

/-- The command to spend all that the account was filled with. -/
def spending : ApplyTransaction :=
  ⟨identifier 0, ofCents 10000, .eur, .debit, "rent"⟩

/-- The balance that it leaves. -/
def spent : Balance :=
  ⟨identifier 1, identifier 0, .eur, ofCents 0, 3, .start2025⟩

/-- What it is answered. -/
def spentApplied : Applied :=
  ⟨Attempt.record spending (ofCents 10000) spent "spend" .start2025 (draw 12), spent⟩

/-- The account is opened, filled and emptied. -/
def emptied : List Instruction :=
  [opening, posting .credit 10000 "fill" 6 .none] ++ posting .debit 10000 "spend" 12 .none :: []

/-- A duplicate of the debit overlooks its record. -/
def duplicate : Instruction :=
  ⟨.applyTransaction spending, "spend", .start2025, draw 18, .once .receipt .overlooks⟩

/-- The duplicate is refused for want of funds, and not answered as a replay. -/
theorem serve_overlooked_emptied :
    (∃ b available amount,
      (({} : Ledger).after emptied).balance? spending.accountId spending.currency = some b ∧
      b.available = ofCents available ∧ spending.amount.cents? = some amount ∧
      (({} : Ledger).after emptied).serve duplicate =
        (.applied (Ledger.duplicateAnswer spending available amount spentApplied),
          ({} : Ledger).after emptied)) ∧
      ((({} : Ledger).after emptied).serve duplicate).1 =
        .applied (.error (.refused (.insufficientFunds (ofCents 0) (ofCents 10000)))) := by
  have hfresh : ({} : Ledger).DrawsFresh emptied := Ledger.drawsFresh_of_nodup (by decide)
  exact ⟨Ledger.serve_overlooked (c := spending) (a := spentApplied) hfresh rfl rfl rfl
    .start2025 (draw 18), rfl⟩

end Sample

end KeyedLedger
