import KeyedLedger.Proofs.Ledger.Replay

/-! # Commands on a store that does not fail

On such a store the end of a command depends on what is committed alone, not on what the store has
been asked before. Under a key that has a value recorded, a request of the type of that value gets
it, and one of the other type is refused; neither changes the ledger. Every value that is recorded
can be written without loss.
-/

namespace KeyedLedger

variable {α : Type}

/-- The value can be written without loss. -/
def Result.Legible : Result → Prop
  | opened a => a.Legible
  | applied a => a.transaction.Legible ∧ a.balance.Legible

/-- What an instruction is answered, without the note that it has been answered before. -/
def Report.outcome : Report → Except LedgerError Result
  | opened result => result.map fun a => .opened a.value
  | applied result => result.map fun a => .applied a.value

theorem Report.outcome_eq_ok_iff {r : Report} {v : Result} :
    r.outcome = .ok v ↔ r.result? = some v := by
  rcases r with (_ | _) | (_ | _) <;> simp [outcome, result?, Except.map]

theorem Report.outcome_replay (v : Result) : v.replay.outcome = .ok v := by
  cases v <;> rfl

/-! ## The calls of a store -/

namespace Attempt

theorem Resolves.extends {x : Attempt (Answer α)} {s : Session}
    {planned : Except LedgerError (Answer α × Ledger)} (hx : Resolves x s planned) :
    s.store.Extends (x s).2.store :=
  (hx _ _ rfl).1

theorem resolvingDuplicates_extends {x : Attempt (Answer α)} {s : Session}
    {planned : Except LedgerError (Answer α × Ledger)} (hx : Resolves x s planned) (key : String)
    (type : RequestType) (shape : Shape α) :
    s.store.Extends (resolvingDuplicates key type shape x s).2.store := by
  have hextends := hx.extends
  rw [resolvingDuplicates]
  rcases hfirst : x s with ⟨r, s₁⟩
  rw [hfirst] at hextends
  split
  next k s₂ heq =>
    cases heq
    exact hextends.trans (replayCommitted_resolves key type shape s₁).extends
  next => exact hextends

/-- What is planned determines how an attempt ends. -/
theorem Ends.unique {planned : Except LedgerError (α × Ledger)} {before after after' : Ledger}
    {r r' : Except LedgerError α} (h : Ends planned before r after)
    (h' : Ends planned before r' after') : r = r' ∧ after = after' := by
  rcases planned with e | ⟨a, l⟩
  · exact ⟨h.1.trans h'.1.symm, h.2.trans h'.2.symm⟩
  · exact ⟨h.1.trans h'.1.symm, h.2.trans h'.2.symm⟩

end Attempt

namespace Store

variable {s : Store}

theorem openAccount_disturbances (s : Store) (c : OpenAccount) (key : String) (now : Timestamp)
    (draw : Draw) : (s.openAccount c key now draw).2.disturbances = s.disturbances :=
  (Attempt.resolvingDuplicates_extends (Attempt.openAccount_resolves c key now draw ⟨s, s.ledger⟩)
    key .openAccount Account.shape).disturbances

theorem applyTransaction_disturbances (s : Store) (c : ApplyTransaction) (key : String)
    (now : Timestamp) (draw : Draw) :
    (s.applyTransaction c key now draw).2.disturbances = s.disturbances :=
  (Attempt.resolvingDuplicates_extends
    (Attempt.applyTransaction_resolves c key now draw ⟨s, s.ledger⟩)
    key .applyTransaction Applied.shape).disturbances

/-- What a store has been asked before makes no difference to a command that opens an account. -/
theorem openAccount_of_calm (hcalm : s.disturbances = .none) (c : OpenAccount) (key : String)
    (now : Timestamp) (draw : Draw) :
    s.ledger.serve ⟨.openAccount c, key, now, draw, .none⟩ =
      (.opened (s.openAccount c key now draw).1, (s.openAccount c key now draw).2.ledger) := by
  have hends := ends_of_calm hcalm (s.openAccount_cases c key now draw)
  have hends' := ends_of_calm (s := s.ledger.under .none) rfl
    (openAccount_cases (s.ledger.under .none) c key now draw)
  rw [found_of_calm hcalm] at hends
  rw [found_of_calm rfl] at hends'
  obtain ⟨hresult, hledger⟩ := hends'.unique hends
  rw [Ledger.serve_openAccount, hresult, hledger]

/-- What a store has been asked before makes no difference to a command that applies a
transaction. -/
theorem applyTransaction_of_calm (hcalm : s.disturbances = .none) (c : ApplyTransaction)
    (key : String) (now : Timestamp) (draw : Draw) :
    s.ledger.serve ⟨.applyTransaction c, key, now, draw, .none⟩ =
      (.applied (s.applyTransaction c key now draw).1,
        (s.applyTransaction c key now draw).2.ledger) := by
  have hends := ends_of_calm hcalm (s.applyTransaction_cases c key now draw)
  have hends' := ends_of_calm (s := s.ledger.under .none) rfl
    (applyTransaction_cases (s.ledger.under .none) c key now draw)
  rw [found_of_calm hcalm] at hends
  rw [found_of_calm rfl] at hends'
  obtain ⟨hresult, hledger⟩ := hends'.unique hends
  rw [Ledger.serve_applyTransaction, hresult, hledger]

end Store

namespace Ledger

variable {l : Ledger} {key : String} {now : Timestamp}

/-! ## Keys of the other type -/

theorem Records.receipt {v : Result} (h : l.Records key v) :
    ∃ r, l.receipt? key = some r ∧ r.requestType = v.type.code := by
  cases v with
  | opened a => exact receipt?_of_recorded h
  | applied a => exact receipt?_of_recorded h

/-- An instruction under a key that has a value of the other type recorded is refused. -/
theorem Records.refuse {j : Instruction} {v : Result} (h : l.Records j.key v)
    (htype : v.type ≠ j.command.type) (hvalid : j.command.Valid) (hcalm : j.disturbances = .none) :
    (l.serve j).1.outcome = .error (.keyTaken j.key v.type.code) ∧ (l.serve j).2 = l := by
  obtain ⟨r, hr, hcode⟩ := h.receipt
  rcases j with ⟨c | c, key, now, draw, d⟩
  · have hends := Store.ends_of_calm (s := l.under d) hcalm
      ((l.under d).openAccount_cases c key now draw)
    rw [Store.found_of_calm hcalm] at hends
    have hfound : (l.under d).ledger.recorded key .openAccount Account.shape =
      .error (.keyTaken key v.type.code) := recorded_of_other _ hr hcode htype
    rw [hfound] at hends
    rw [serve_openAccount, hends.1, hends.2]
    exact ⟨rfl, rfl⟩
  · obtain ⟨⟨amount, hamount⟩, hdescribed⟩ := hvalid
    have hends := Store.ends_of_calm (s := l.under d) hcalm
      ((l.under d).applyTransaction_cases c key now draw)
    rw [Store.found_of_calm hcalm] at hends
    have hfound : (l.under d).ledger.recorded key .applyTransaction Applied.shape =
      .error (.keyTaken key v.type.code) := recorded_of_other _ hr hcode htype
    have hplan : c.plan (.error (.keyTaken key v.type.code)) key now draw l =
        .error (.keyTaken key v.type.code) := by
      rw [ApplyTransaction.plan_apply, hamount, hdescribed]
      rfl
    rw [hfound] at hends
    change Attempt.Ends (Plan.orRecorded (c.plan _ key now draw l) _ _ _ _) _ _ _ at hends
    rw [hplan] at hends
    rw [serve_applyTransaction, hends.1, hends.2]
    exact ⟨rfl, rfl⟩

/-! ## Recorded values are legible -/

/-- Every recorded value can be written without loss. -/
def Written (l : Ledger) : Prop :=
  ∀ key v, l.Records key v → v.Legible

theorem Records.unique {v w : Result} (hv : l.Records key v) (hw : l.Records key w) : v = w := by
  obtain ⟨r, hr, hcode⟩ := hv.receipt
  obtain ⟨r', hr', hcode'⟩ := hw.receipt
  cases hr.symm.trans hr'
  have hcodes := hcode.symm.trans hcode'
  cases v <;> cases w
  · rw [Records] at hv hw
    cases hv.symm.trans hw
    rfl
  · simp [Result.type, RequestType.code] at hcodes
  · simp [Result.type, RequestType.code] at hcodes
  · rw [Records] at hv hw
    cases hv.symm.trans hw
    rfl

theorem not_records_empty (key : String) (v : Result) : ¬ ({} : Ledger).Records key v := by
  intro h
  obtain ⟨r, hr, -⟩ := h.receipt
  simp [receipt?] at hr

theorem written_empty : ({} : Ledger).Written :=
  fun key v h => absurd h (not_records_empty key v)

theorem Written.append (h : l.Written) {l' : Ledger} {r : Receipt} {w : Result}
    (hreceipts : l'.receipts = l.receipts ++ [r]) (hrecords : l'.Records r.key w)
    (hw : w.Legible) : l'.Written := by
  intro key v hv
  by_cases hkey : r.key = key
  · rw [hkey] at hrecords
    rw [hv.unique hrecords]
    exact hw
  · have hsame : l'.receipt? key = l.receipt? key := by
      rw [receipt?_append key hreceipts, if_neg hkey, Option.or_none]
    apply h key v
    cases v with
    | opened a => exact (recorded_congr hsame _ _).symm.trans hv
    | applied a => exact (recorded_congr hsame _ _).symm.trans hv

theorem Written.serve (h : l.Written) (hcents : l.InCents) {i : Instruction}
    (hnow : Timestamp.yearInRange i.now.date.year = true) : (l.serve i).2.Written := by
  apply serve_induction (P := Written) h
  · intro c a hopens
    exact h.append rfl (recorded_opened hopens hnow)
      (Account.legible_of_opening hopens.opening hnow)
  · intro c a hposts
    obtain ⟨current, available, amount, after, hmoves⟩ := hcents.moves hposts
    exact h.append rfl (recorded_posted hcents hposts hnow) (hmoves.legible hnow)

/-- A value that an instruction is answered with is recorded afterwards, and is of its type. -/
theorem records_of_outcome {i : Instruction} {v : Result} (hcents : l.InCents)
    (hnow : Timestamp.yearInRange i.now.date.year = true)
    (hv : (l.serve i).1.outcome = .ok v) :
    (l.serve i).2.Records i.key v ∧ v.type = i.command.type :=
  records_serve hcents hnow (Report.outcome_eq_ok_iff.mp hv)

/-- A value that an instruction is answered with can be written without loss. -/
theorem Written.legible (h : l.Written) (hcents : l.InCents) {i : Instruction} {v : Result}
    (hnow : Timestamp.yearInRange i.now.date.year = true)
    (hv : (l.serve i).1.outcome = .ok v) : v.Legible :=
  h.serve hcents hnow _ _ (records_of_outcome hcents hnow hv).1

end Ledger

end KeyedLedger
