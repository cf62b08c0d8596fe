import KeyedLedger.Proofs.Ledger.Calm
import KeyedLedger.Proofs.Ledger.Effects

/-! # Where a result comes from

A result is carried out in the course of a history when some instruction of it came to that. A value
that an instruction came to is recorded at the end of the history, and every recorded value is the
effect of an instruction, the one that committed it. So all values under one key are the same.
-/

namespace KeyedLedger

theorem Report.outcome_of_effect {r : Report} {v : Result} (h : r.effect? = some v) :
    r.outcome = .ok v := by
  rcases r with (_ | ⟨a, _ | _⟩) | (_ | ⟨a, _ | _⟩) <;> cases h <;> rfl

namespace Ledger

variable {history : List Instruction} {i : Instruction} {key : String} {v : Result}

/-- An instruction of a history came to a result. -/
def CarriedOut (l : Ledger) (history : List Instruction) (i : Instruction)
    (result : Except LedgerError Result) : Prop :=
  ∃ before after, history = before ++ i :: after ∧ ((l.after before).serve i).1.outcome = result

theorem CarriedOut.append {l : Ledger} {result : Except LedgerError Result}
    (h : l.CarriedOut history i result) (later : List Instruction) :
    l.CarriedOut (history ++ later) i result := by
  obtain ⟨before, after, rfl, hresult⟩ := h
  exact ⟨before, after ++ later, by simp, hresult⟩

theorem carriedOut_last (l : Ledger) (history : List Instruction) (i : Instruction) :
    l.CarriedOut (history ++ [i]) i ((l.after history).serve i).1.outcome :=
  ⟨history, [], rfl, rfl⟩

theorem CarriedOut.mem {l : Ledger} {result : Except LedgerError Result}
    (h : l.CarriedOut history i result) : i ∈ history := by
  obtain ⟨before, after, rfl, -⟩ := h
  exact List.mem_append_right _ List.mem_cons_self

/-- The time of each instruction is one that can be written. -/
def Timed (history : List Instruction) : Prop :=
  ∀ i ∈ history, Timestamp.yearInRange i.now.date.year = true

theorem timed_nil : Timed [] :=
  List.forall_mem_nil _

theorem Timed.append {later : List Instruction} (h : Timed history) (h' : Timed later) :
    Timed (history ++ later) := by
  intro i hi
  rcases List.mem_append.mp hi with hi | hi
  · exact h i hi
  · exact h' i hi

theorem written_after (h : Timed history) : (({} : Ledger).after history).Written := by
  induction history using List.reverseRecOn with
  | nil => exact written_empty
  | append_singleton history i ih =>
      rw [after_concat]
      have hbefore : Timed history := fun j hj => h j (List.mem_append_left _ hj)
      exact (ih hbefore).serve (inCents_after history) (h i (by simp))

/-- A value that an instruction came to is recorded under its key, and is of its type. -/
theorem CarriedOut.records (h : ({} : Ledger).CarriedOut history i (.ok v))
    (htimed : Timed history) :
    (({} : Ledger).after history).Records i.key v ∧ v.type = i.command.type ∧ v.Legible := by
  have hclock := htimed i h.mem
  have hwritten := written_after htimed
  obtain ⟨before, after, rfl, hresult⟩ := h
  obtain ⟨hrecords, htype⟩ := records_of_outcome (inCents_after before) hclock hresult
  have hlater := hrecords.after after
  rw [after_append]
  refine ⟨hlater, htype, ?_⟩
  rw [after_append] at hwritten
  exact hwritten _ _ hlater

/-- An instruction under a key committed a value. -/
def Commits (l : Ledger) (history : List Instruction) (key : String) (v : Result) : Prop :=
  ∃ before i after, history = before ++ i :: after ∧ i.key = key ∧
    ((l.after before).serve i).1.effect? = some v

theorem Commits.append {l : Ledger} (h : l.Commits history key v) (later : List Instruction) :
    l.Commits (history ++ later) key v := by
  obtain ⟨before, i, after, rfl, hkey, heffect⟩ := h
  exact ⟨before, i, after ++ later, by simp, hkey, heffect⟩

theorem serve_of_no_effect {l : Ledger} (h : (l.serve i).1.effect? = none) : (l.serve i).2 = l := by
  have heffect := l.serve_effect i
  rwa [h] at heffect

theorem serve_of_error {l : Ledger} {e : LedgerError} (h : (l.serve i).1.outcome = .error e) :
    (l.serve i).2 = l := by
  apply serve_of_no_effect
  cases heffect : (l.serve i).1.effect? with
  | none => rfl
  | some v => cases h.symm.trans (Report.outcome_of_effect heffect)

/-- What a transaction does to the ledger. -/
theorem apply_cases {l : Ledger} {c : ApplyTransaction}
    (hcommand : i.command = .applyTransaction c) :
    ((l.serve i).1.effect? = none ∧ (l.serve i).2 = l) ∨
      ∃ a, (l.serve i).1.effect? = some (.applied a) ∧ l.Posts c i.key i.now i.draw a ∧
        (l.serve i).2 = l.posted a i.key i.now := by
  rcases heffect : (l.serve i).1.effect? with _ | v
  · exact Or.inl ⟨rfl, serve_of_no_effect heffect⟩
  rcases i with ⟨command, key, now, draw, d⟩
  cases hcommand
  rw [serve_applyTransaction] at heffect
  rcases hanswer : ((l.under d).applyTransaction c key now draw).1 with e | ⟨a, _ | _⟩ <;>
    rw [hanswer] at heffect <;> cases heffect
  exact Or.inr ⟨a, rfl, posts_of_serve rfl (congrArg Report.applied hanswer)⟩

/-- An effect is recorded. -/
theorem records_of_effect {l : Ledger} (hcents : l.InCents)
    (hclock : Timestamp.yearInRange i.now.date.year = true)
    (h : (l.serve i).1.effect? = some v) : (l.serve i).2.Records i.key v :=
  (records_of_outcome hcents hclock (Report.outcome_of_effect h)).1

theorem Commits.records (h : ({} : Ledger).Commits history key v) (htimed : Timed history) :
    (({} : Ledger).after history).Records key v := by
  obtain ⟨before, i, after, rfl, rfl, heffect⟩ := h
  rw [after_append]
  exact (records_of_effect (inCents_after before) (htimed i (by simp)) heffect).after after

/-- Only one value is ever committed under a key. -/
theorem Commits.unique {w : Result} (hv : ({} : Ledger).Commits history key v)
    (hw : ({} : Ledger).Commits history key w) (htimed : Timed history) : v = w :=
  (hv.records htimed).unique (hw.records htimed)

/-- An instruction leaves the records of other keys alone. -/
theorem records_serve_of_ne {l : Ledger} (hne : i.key ≠ key) :
    (l.serve i).2.Records key v ↔ l.Records key v := by
  have hsame : (l.serve i).2.receipt? key = l.receipt? key := by
    apply serve_induction (P := fun l' => l'.receipt? key = l.receipt? key) rfl
    · intro c a _
      rw [receipt?_append (l := l) key rfl, if_neg hne, Option.or_none]
    · intro c a _
      rw [receipt?_append (l := l) key rfl, if_neg hne, Option.or_none]
  cases v with
  | opened a => rw [Records, Records, recorded_congr hsame]
  | applied a => rw [Records, Records, recorded_congr hsame]

/-- An instruction that leaves a new value recorded has committed it. -/
theorem effect_of_records {l : Ledger} (hcents : l.InCents)
    (hclock : Timestamp.yearInRange i.now.date.year = true) (hnew : ¬ l.Records key v)
    (hrecords : (l.serve i).2.Records key v) :
    i.key = key ∧ (l.serve i).1.effect? = some v := by
  have hkey : i.key = key := by
    by_contra hne
    exact hnew ((records_serve_of_ne hne).mp hrecords)
  subst hkey
  refine ⟨rfl, ?_⟩
  rcases heffect : (l.serve i).1.effect? with _ | w
  · rw [serve_of_no_effect heffect] at hrecords
    exact absurd hrecords hnew
  · rw [(records_of_effect hcents hclock heffect).unique hrecords]

/-- Every recorded value has been committed under its key. -/
theorem commits_of_records (htimed : Timed history)
    (h : (({} : Ledger).after history).Records key v) : ({} : Ledger).Commits history key v := by
  induction history using List.reverseRecOn with
  | nil => exact absurd h (not_records_empty key v)
  | append_singleton history i ih =>
      have hbefore : Timed history := fun j hj => htimed j (List.mem_append_left _ hj)
      -- Either the value was there before the last instruction, or that has committed it.
      by_cases hold : (({} : Ledger).after history).Records key v
      · exact (ih hbefore hold).append [i]
      · rw [after_concat] at h
        obtain ⟨hkey, heffect⟩ :=
          effect_of_records (inCents_after history) (htimed i (by simp)) hold h
        exact ⟨history, i, [], rfl, hkey, heffect⟩

/-! ## Transactions -/

/-- Nothing is committed under a key that has a receipt. -/
theorem Commits.unrecorded {l : Ledger} (h : l.Commits history key v) : l.receipt? key = none := by
  obtain ⟨before, i, after, rfl, rfl, heffect⟩ := h
  have hserve := (l.after before).serve_effect i
  rw [heffect] at hserve
  have hnone : (l.after before).receipt? i.key = none := by
    cases v with
    | opened a =>
        obtain ⟨⟨c, hopens⟩, -⟩ := hserve
        exact hopens.unrecorded
    | applied a =>
        obtain ⟨⟨c, hposts⟩, -⟩ := hserve
        exact hposts.unrecorded
  -- A receipt stays, so that one that had been there at first would still be there.
  cases hreceipt : l.receipt? i.key with
  | none => rfl
  | some r =>
      have hlater := after_of_serve (P := fun l => l.receipt? i.key = some r)
        (fun _ j hr => receipt?_serve hr j) hreceipt before
      cases hnone.symm.trans hlater

/-- Every new transaction has been committed under its key. -/
theorem commits_of_transaction {l : Ledger} {t : Transaction}
    (ht : t ∈ (l.after history).transactions) (hnew : t ∉ l.transactions) :
    ∃ a : Applied, l.Commits history t.key (.applied a) ∧ a.transaction = t := by
  induction history using List.reverseRecOn with
  | nil => exact absurd ht hnew
  | append_singleton history i ih =>
      by_cases hold : t ∈ (l.after history).transactions
      · obtain ⟨a, hcommits, ha⟩ := ih hold
        exact ⟨a, hcommits.append [i], ha⟩
      · rw [after_concat] at ht
        have hserve := (l.after history).serve_effect i
        rcases heffect : ((l.after history).serve i).1.effect? with _ | a | a <;>
          rw [heffect] at hserve
        · rw [hserve] at ht
          exact absurd ht hold
        · rw [hserve.2] at ht
          exact absurd ht hold
        · obtain ⟨⟨c, hposts⟩, hafter⟩ := hserve
          rw [hafter] at ht
          rcases List.mem_append.mp ht with ht | ht
          · exact absurd ht hold
          · obtain rfl := List.mem_singleton.mp ht
            exact ⟨a, ⟨history, i, [], rfl, hposts.record.1.symm, heffect⟩, rfl⟩

/-- Under one key there is at most one transaction. -/
theorem transaction_unique (htimed : Timed history) {t t' : Transaction}
    (ht : t ∈ (({} : Ledger).after history).transactions)
    (ht' : t' ∈ (({} : Ledger).after history).transactions) (hkey : t.key = t'.key) : t = t' := by
  obtain ⟨a, hcommits, rfl⟩ := commits_of_transaction ht List.not_mem_nil
  obtain ⟨a', hcommits', rfl⟩ := commits_of_transaction ht' List.not_mem_nil
  cases hcommits.unique (hkey ▸ hcommits') htimed
  rfl

end Ledger

end KeyedLedger
