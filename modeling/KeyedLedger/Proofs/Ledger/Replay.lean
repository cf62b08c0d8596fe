import KeyedLedger.Proofs.Entity.Reading
import KeyedLedger.Proofs.Ledger.Invariant

/-! # Replaying what has been answered

A command that was answered under a key is recorded there, and what is recorded is never written
again. So whatever comes later, the command of the same type under the key is answered with the same
value, which is read back from the record and not from the balances of the day.
-/

namespace KeyedLedger

open Money

variable {α : Type}

/-- The value that a command is answered with. -/
inductive Result where
  | opened (account : Account)
  | applied (applied : Applied)

namespace Result

/-- The type of the request that has a value for its result. -/
def type : Result → RequestType
  | opened _ => .openAccount
  | applied _ => .applyTransaction

/-- The answer with the value of an earlier command. -/
def replay : Result → Report
  | opened a => .opened (.ok ⟨a, true⟩)
  | applied a => .applied (.ok ⟨a, true⟩)

end Result

/-- The value of a report, if it has one. -/
def Report.result? : Report → Option Result
  | opened (.ok a) => some (.opened a.value)
  | applied (.ok a) => some (.applied a.value)
  | _ => none

namespace Command

/-- The type of the request that a command makes. -/
def type : Command → RequestType
  | openAccount _ => .openAccount
  | applyTransaction _ => .applyTransaction

/-- A command passes the checks that come before its key is looked up: the amount and the
description of a transaction. -/
def Valid : Command → Prop
  | openAccount _ => True
  | applyTransaction c =>
    (∃ amount, Money.validate c.amount = .ok amount) ∧ checkDescription c.description = .ok ()

end Command

/-! ## Results are legible -/

theorem unsigned_ofCents (n : Nat) :
    (ofCents n).negative = true → (ofCents n).mantissa ≠ 0 := fun h => absurd h Bool.false_ne_true

theorem Account.legible_of_opening {customer : CustomerId} {country : CountryCode}
    {listed : List Currency} {now : Timestamp} {draw : Draw} {a : Account}
    (h : opening customer country listed now draw = .ok a)
    (hnow : Timestamp.yearInRange now.date.year = true) : a.Legible := by
  obtain ⟨currencies, -, rfl⟩ := eq_of_opening h
  refine ⟨fun b hb => ?_, hnow, hnow⟩
  obtain ⟨c, -, rfl⟩ := List.mem_map.mp hb
  exact ⟨fun hneg => absurd hneg Bool.false_ne_true, hnow⟩

namespace Ledger

variable {l : Ledger} {key : String} {now : Timestamp} {draw : Draw}

theorem Moves.legible {c : ApplyTransaction} {a : Applied} {current : Balance}
    {available amount after : Nat}
    (h : l.Moves c key now draw a current available amount after)
    (hnow : Timestamp.yearInRange now.date.year = true) :
    a.transaction.Legible ∧ a.balance.Legible := by
  rw [h.transaction, h.balance]
  exact ⟨⟨unsigned_ofCents _, unsigned_ofCents _, hnow, hnow⟩, unsigned_ofCents _, hnow⟩

/-! ## What is recorded -/

/-- The ledger has recorded a value under a key, and a request of its type is answered with it. -/
def Records (l : Ledger) (key : String) : Result → Prop
  | .opened a => l.recorded key .openAccount Account.shape = .ok (some ⟨a, true⟩)
  | .applied a => l.recorded key .applyTransaction Applied.shape = .ok (some ⟨a, true⟩)

theorem receipt?_append {l' : Ledger} {r : Receipt} (key : String)
    (hreceipts : l'.receipts = l.receipts ++ [r]) :
    l'.receipt? key = (l.receipt? key).or (if r.key = key then some r else none) := by
  rw [receipt?, hreceipts, List.find?_append, receipt?, List.find?_singleton]
  simp only [decide_eq_true_eq]

theorem receipt?_serve {r : Receipt} (h : l.receipt? key = some r) (i : Instruction) :
    (l.serve i).2.receipt? key = some r := by
  apply serve_induction (P := fun l => l.receipt? key = some r) h
  · intro c a _
    rw [receipt?_append (l := l) key rfl, h, Option.some_or]
  · intro c a _
    rw [receipt?_append (l := l) key rfl, h, Option.some_or]

theorem recorded_congr {l' : Ledger} (h : l'.receipt? key = l.receipt? key) (type : RequestType)
    (shape : Shape α) : l'.recorded key type shape = l.recorded key type shape := by
  rw [recorded, recorded, h]

theorem receipt?_of_recorded {type : RequestType} {shape : Shape α} {a : Answer α}
    (h : l.recorded key type shape = .ok (some a)) :
    ∃ r, l.receipt? key = some r ∧ r.requestType = type.code := by
  rw [recorded] at h
  cases hreceipt : l.receipt? key with
  | none => simp [hreceipt] at h
  | some r =>
      refine ⟨r, rfl, ?_⟩
      by_contra htype
      simp [hreceipt, htype] at h

theorem recorded_value {type : RequestType} {shape : Shape α} {a : Answer α}
    (h : l.recorded key type shape = .ok (some a)) :
    l.recorded key type shape = .ok (some ⟨a.value, true⟩) := by
  rw [h, ← replayed_of_recorded h]

theorem recorded_serve {type : RequestType} {shape : Shape α} {a : Answer α}
    (h : l.recorded key type shape = .ok (some a)) (i : Instruction) :
    (l.serve i).2.recorded key type shape = .ok (some a) := by
  obtain ⟨r, hr, -⟩ := receipt?_of_recorded h
  rw [recorded_congr ((receipt?_serve hr i).trans hr.symm), h]

theorem Records.serve {v : Result} (h : l.Records key v) (i : Instruction) :
    (l.serve i).2.Records key v := by
  cases v with
  | opened a => exact recorded_serve h i
  | applied a => exact recorded_serve h i

/-- What is recorded stays, whatever comes later. -/
theorem Records.after {v : Result} (h : l.Records key v) (history : List Instruction) :
    (l.after history).Records key v :=
  after_of_serve (P := fun l => l.Records key v) (fun _ i h => Records.serve h i) h history

theorem recorded_new {type : RequestType} {shape : Shape α} {j : Json} {a : α} {l' : Ledger}
    (hnone : l.receipt? key = none) (hreads : shape.decoder.Reads j a)
    (hreceipts : l'.receipts = l.receipts ++ [⟨key, type.code, now, j.sorted⟩]) :
    l'.recorded key type shape = .ok (some ⟨a, true⟩) := by
  have hreceipt : l'.receipt? key = some ⟨key, type.code, now, j.sorted⟩ := by
    rw [receipt?_append key hreceipts, hnone, Option.none_or, if_pos rfl]
  exact recorded_of_receipt hreceipt rfl hreads.sorted

theorem recorded_opened {c : OpenAccount} {a : Account} (hopens : l.Opens c key now draw a)
    (hnow : Timestamp.yearInRange now.date.year = true) :
    (l.opened a key now).Records key (.opened a) :=
  recorded_new hopens.unrecorded (Account.legible_of_opening hopens.opening hnow).reads rfl

theorem recorded_posted {c : ApplyTransaction} {a : Applied} (hcents : l.InCents)
    (hposts : l.Posts c key now draw a) (hnow : Timestamp.yearInRange now.date.year = true) :
    (l.posted a key now).Records key (.applied a) := by
  obtain ⟨current, available, amount, after, hmoves⟩ := hcents.moves hposts
  obtain ⟨ht, hb⟩ := hmoves.legible hnow
  exact recorded_new hposts.unrecorded (Applied.reads ht hb) rfl

end Ledger

namespace Store

/-! ## Answering from the record -/

theorem found_of_calm {s : Store} (hcalm : s.disturbances = .none) (key : String)
    (type : RequestType) (shape : Shape α) :
    s.found key type shape = s.ledger.recorded key type shape := by
  rw [found, hcalm]
  rfl

theorem ends_of_calm {s : Store} (hcalm : s.disturbances = .none)
    {planned : Except LedgerError (Answer α × Ledger)} {key : String} {type : RequestType}
    {shape : Shape α} {r : Except LedgerError (Answer α)} {after : Ledger}
    (h : Attempt.EndsOrQuiet planned key type shape s r after) :
    Attempt.Ends (Plan.orRecorded planned key type shape s.ledger) s.ledger r after := by
  apply h.ends
  · rw [hcalm]
    exact Disturbances.not_fails_none
  · rw [hcalm]
    exact Disturbances.not_overlooksAgain_none

variable {s : Store} {key : String}

theorem openAccount_recorded {a : Answer Account} (hcalm : s.disturbances = .none)
    (h : s.ledger.recorded key .openAccount Account.shape = .ok (some a)) (c : OpenAccount)
    (now : Timestamp) (draw : Draw) :
    (s.openAccount c key now draw).1 = .ok a ∧
      (s.openAccount c key now draw).2.ledger = s.ledger := by
  have hends := ends_of_calm hcalm (s.openAccount_cases c key now draw)
  rw [found_of_calm hcalm, h] at hends
  exact hends

theorem applyTransaction_recorded {a : Answer Applied} (hcalm : s.disturbances = .none)
    (h : s.ledger.recorded key .applyTransaction Applied.shape = .ok (some a))
    {c : ApplyTransaction} {amount : Decimal} (hvalid : Money.validate c.amount = .ok amount)
    (hdescribed : checkDescription c.description = .ok ()) (now : Timestamp) (draw : Draw) :
    (s.applyTransaction c key now draw).1 = .ok a ∧
      (s.applyTransaction c key now draw).2.ledger = s.ledger := by
  have hends := ends_of_calm hcalm (s.applyTransaction_cases c key now draw)
  have hplan : c.plan (.ok (some a)) key now draw s.ledger = .ok (a, s.ledger) := by
    rw [ApplyTransaction.plan_apply, hvalid, hdescribed]
    rfl
  rw [found_of_calm hcalm, h, hplan] at hends
  exact hends

end Store

namespace Ledger

variable {l : Ledger}

/-- An instruction that is answered with a value leaves it recorded under its key. -/
theorem records_serve {i : Instruction} {v : Result} (hcents : l.InCents)
    (hnow : Timestamp.yearInRange i.now.date.year = true)
    (hresult : (l.serve i).1.result? = some v) :
    (l.serve i).2.Records i.key v ∧ v.type = i.command.type := by
  rcases i with ⟨c | c, key, now, draw, d⟩
  · rw [serve_openAccount] at hresult ⊢
    rcases (l.under d).openAccount_ledger c key now draw with ⟨hsame, hrecorded⟩ |
      ⟨a, hok, hopens, hafter⟩
    · rcases hanswer : ((l.under d).openAccount c key now draw).1 with e | answer <;>
        rw [hanswer] at hresult <;> cases hresult
      rw [hsame]
      exact ⟨recorded_value (hrecorded answer hanswer), rfl⟩
    · rw [hok] at hresult
      cases hresult
      rw [hafter]
      exact ⟨recorded_opened hopens hnow, rfl⟩
  · rw [serve_applyTransaction] at hresult ⊢
    rcases (l.under d).applyTransaction_ledger c key now draw with ⟨hsame, hrecorded⟩ |
      ⟨a, hok, hposts, hafter⟩
    · rcases hanswer : ((l.under d).applyTransaction c key now draw).1 with e | answer <;>
        rw [hanswer] at hresult <;> cases hresult
      rw [hsame]
      exact ⟨recorded_value (hrecorded answer hanswer), rfl⟩
    · rw [hok] at hresult
      cases hresult
      rw [hafter]
      exact ⟨recorded_posted hcents hposts hnow, rfl⟩

/-- An instruction under a key that has a value of its type recorded is answered with that. -/
theorem Records.replay {j : Instruction} {v : Result} (h : l.Records j.key v)
    (htype : j.command.type = v.type) (hvalid : j.command.Valid)
    (hcalm : j.disturbances = .none) : l.serve j = (v.replay, l) := by
  rcases j with ⟨c | c, key, now, draw, d⟩
  · cases v with
    | applied a => cases htype
    | opened a =>
        have hrecorded : (l.under d).ledger.recorded key .openAccount Account.shape =
          .ok (some ⟨a, true⟩) := h
        obtain ⟨hanswer, hledger⟩ :=
          Store.openAccount_recorded (s := l.under d) hcalm hrecorded c now draw
        rw [serve_openAccount, hanswer, hledger]
        rfl
  · cases v with
    | opened a => cases htype
    | applied a =>
        have hrecorded : (l.under d).ledger.recorded key .applyTransaction Applied.shape =
          .ok (some ⟨a, true⟩) := h
        obtain ⟨⟨amount, hamount⟩, hdescribed⟩ := hvalid
        obtain ⟨hanswer, hledger⟩ :=
          Store.applyTransaction_recorded (s := l.under d) hcalm hrecorded hamount hdescribed now
            draw
        rw [serve_applyTransaction, hanswer, hledger]
        rfl

/-- Whatever comes later, a command of the same type under the key of one that was answered with a
value is answered with that value, and changes nothing. -/
theorem serve_again {before later : List Instruction} {i j : Instruction} {v : Result}
    (hclock : Timestamp.yearInRange i.now.date.year = true)
    (hanswered : ((({} : Ledger).after before).serve i).1.result? = some v)
    (hkey : j.key = i.key) (htype : j.command.type = i.command.type) (hvalid : j.command.Valid)
    (hcalm : j.disturbances = .none) :
    (({} : Ledger).after (before ++ i :: later)).serve j =
      (v.replay, ({} : Ledger).after (before ++ i :: later)) := by
  obtain ⟨hrecords, hsame⟩ := records_serve (inCents_after before) hclock hanswered
  have hlater := hrecords.after later
  rw [← hkey] at hlater
  rw [after_append]
  exact hlater.replay (htype.trans hsame.symm) hvalid hcalm

end Ledger

namespace Sample

/-- The first credit of the account, with the balance that it leaves. -/
def filled : Applied :=
  let balance : Balance :=
    ⟨identifier 1, identifier 0, .eur, ofCents 10000, 2, .start2025⟩
  let command : ApplyTransaction := ⟨identifier 0, ofCents 10000, .eur, .credit, "rent"⟩
  ⟨Attempt.record command (ofCents 10000) balance "fill" .start2025 (draw 6), balance⟩

theorem serve_again_filled :
    (({} : Ledger).after ([opening] ++ posting .credit 10000 "fill" 6 .none ::
      [posting .debit 4000 "spend" 12 .none])).serve (posting .debit 1 "fill" 18 .none) =
      ((Result.applied filled).replay,
        ({} : Ledger).after ([opening] ++ posting .credit 10000 "fill" 6 .none ::
          [posting .debit 4000 "spend" 12 .none])) :=
  Ledger.serve_again rfl rfl rfl rfl ⟨⟨_, rfl⟩, rfl⟩ rfl

end Sample

end KeyedLedger
