import KeyedLedger.Proofs.Ledger.Attempt

/-! # The plans of the two commands

A command looks for a result that is recorded under its key, and is carried out when it finds none.
Here both commands are reduced to their plans: whatever the disturbances of the store, a command
either is cut short by a failure and leaves the ledger as it was, or ends as its plan does on the
committed ledger. A plan that meets a duplicate of the key gives way to the recorded result.
-/

namespace KeyedLedger

variable {α β : Type}

/-- What a ledger has recorded under a key, as a request of a type is answered from it. -/
def Ledger.recorded (l : Ledger) (key : String) (type : RequestType) (shape : Shape α) :
    Except LedgerError (Option (Answer α)) :=
  match l.receipt? key with
  | none => .ok none
  | some receipt =>
    if receipt.requestType ≠ type.code then .error (.keyTaken key receipt.requestType)
    else match shape.decoder.ofJson receipt.result with
      | .ok value => .ok (some ⟨value, true⟩)
      | .error fault => .error (.store (.corrupt fault.message))

/-- What a store lets a unit of work find under a key: what is recorded, unless it is overlooked. -/
def Store.found (s : Store) (key : String) (type : RequestType) (shape : Shape α) :
    Except LedgerError (Option (Answer α)) :=
  match s.disturbances (.receipt :: .begin :: s.calls) with
  | some .overlooks => .ok none
  | _ => s.ledger.recorded key type shape

theorem Ledger.recorded_of_receipt {l : Ledger} {key : String} {type : RequestType}
    {shape : Shape α} {r : Receipt} {a : α} (hr : l.receipt? key = some r)
    (htype : r.requestType = type.code)
    (hread : shape.decoder.ofJson r.result = .ok a) :
    l.recorded key type shape = .ok (some ⟨a, true⟩) := by
  simp only [recorded, hr, hread]
  exact if_neg (not_not_intro htype)

theorem Ledger.recorded_of_other {l : Ledger} {key : String} {type other : RequestType}
    {r : Receipt} (shape : Shape α) (hr : l.receipt? key = some r)
    (htype : r.requestType = other.code) (hother : other ≠ type) :
    l.recorded key type shape = .error (.keyTaken key other.code) := by
  have hcode : other.code ≠ type.code := by
    cases other <;> cases type <;> simp_all [RequestType.code]
  simp only [recorded, hr, htype]
  exact if_pos hcode

theorem Ledger.replayed_of_recorded {l : Ledger} {key : String} {type : RequestType}
    {shape : Shape α} {a : Answer α} (h : l.recorded key type shape = .ok (some a)) :
    a.replayed = true := by
  simp only [recorded] at h
  split at h
  · simp at h
  · split at h
    · simp at h
    · split at h
      · cases h
        rfl
      · simp at h

theorem Store.recorded_of_found {s : Store} {key : String} {type : RequestType} {shape : Shape α}
    {a : Answer α} (h : s.found key type shape = .ok (some a)) :
    s.ledger.recorded key type shape = .ok (some a) := by
  simp only [found] at h
  split at h
  · simp at h
  · exact h

/-- The plan, unless a result has been found already. -/
def Plan.unless (found : Except LedgerError (Option (Answer α))) (p : Plan (Answer α)) :
    Plan (Answer α) := fun l =>
  match found with
  | .error e => .error e
  | .ok (some a) => .ok (a, l)
  | .ok none => p l

/-- Opening an account. -/
def OpenAccount.plan (c : OpenAccount) (key : String) (now : Timestamp) (draw : Draw) :
    Plan (Answer Account) := do
  let account ← Plan.obey (Account.opening c.customer c.country c.currencies now draw)
  Plan.writes fun l => .ok (l.insertAccount account)
  account.balances.forM fun b => Plan.writes fun l => .ok (l.insertBalance b)
  Plan.writes fun l =>
    l.insertReceipt ⟨key, RequestType.openAccount.code, now, account.toJson.sorted⟩
  return ⟨account, false⟩

/-- Applying a transaction of a valid amount. -/
def ApplyTransaction.posting (c : ApplyTransaction) (amount : Decimal) (key : String)
    (now : Timestamp) (draw : Draw) : Plan (Answer Applied) := do
  let _ ← Plan.demand (← Plan.reads fun l => l.account? c.accountId) (.accountNotFound c.accountId)
  let current ← Plan.demand (← Plan.reads fun l => l.balance? c.accountId c.currency)
    (.currencyNotFound c.accountId c.currency)
  let balance ← Plan.obey (current.move c.direction amount now)
  Plan.writes fun l => l.updateBalance balance current.version
  let transaction := Attempt.record c amount balance key now draw
  Plan.writes fun l => l.insertTransaction transaction
  let applied : Applied := ⟨transaction, balance⟩
  Plan.writes fun l =>
    l.insertReceipt ⟨key, RequestType.applyTransaction.code, now, applied.toJson.sorted⟩
  return ⟨applied, false⟩

/-- Applying a transaction, unless a result has been found already. The command is checked first. -/
def ApplyTransaction.plan (c : ApplyTransaction)
    (found : Except LedgerError (Option (Answer Applied))) (key : String) (now : Timestamp)
    (draw : Draw) : Plan (Answer Applied) := do
  let amount ← Plan.obey (Money.validate c.amount)
  Plan.obey (checkDescription c.description)
  Plan.unless found (c.posting amount key now draw)

namespace Attempt

/-- The session in which a unit of work has begun and looked for a recorded result. -/
def lookedUp (s : Session) : Session :=
  ⟨(s.store.called .begin).called .receipt, s.store.ledger⟩

/-- The look-up of a recorded result reads the draft, unless it is disturbed. -/
theorem replay_apply (key : String) (type : RequestType) (shape : Shape α) (s : Session) :
    replay key type shape s = match s.store.disturbances (.receipt :: s.store.calls) with
      | some (.fails e) => (.error (.ofStore e), s.called .receipt)
      | some .overlooks => (.ok none, s.called .receipt)
      | none => (s.draft.recorded key type shape, s.called .receipt) := by
  rw [replay, bind_apply]
  simp only [ask, Work.receipt?, Store.note]
  rcases s.store.disturbances (.receipt :: s.store.calls) with _ | e | _
  · simp only [Ledger.recorded]
    cases s.draft.receipt? key with
    | none => rfl
    | some receipt =>
        by_cases htype : receipt.requestType = type.code
        · simp only [htype, ne_eq, not_true_eq_false, if_false]
          cases shape.decoder.ofJson receipt.result <;> rfl
        · simp only [htype, ne_eq, not_false_eq_true, if_true]
          rfl
  · rfl
  · rfl

/-- A unit of work begins, looks for a recorded result and goes on with what the store lets it find,
unless one of the two calls is made to fail. -/
theorem begin_replay_apply (key : String) (type : RequestType) (shape : Shape α)
    (f : Option (Answer α) → Attempt β) (s : Session) :
    (do ask Work.begin; let found ← replay key type shape; f found) s =
      match s.store.disturbances (.begin :: s.store.calls) with
      | some (.fails e) => (.error (.ofStore e), s.called .begin)
      | _ =>
        match s.store.disturbances (.receipt :: .begin :: s.store.calls) with
        | some (.fails e) => (.error (.ofStore e), lookedUp s)
        | _ =>
          match s.store.found key type shape with
          | .ok found => f found (lookedUp s)
          | .error e => (.error e, lookedUp s) := by
  have hbegun : (do let found ← replay key type shape; f found)
      ⟨s.store.called .begin, s.store.ledger⟩ =
        match s.store.disturbances (.receipt :: .begin :: s.store.calls) with
        | some (.fails e) => (.error (.ofStore e), lookedUp s)
        | _ =>
          match s.store.found key type shape with
          | .ok found => f found (lookedUp s)
          | .error e => (.error e, lookedUp s) := by
    simp only [bind_apply, replay_apply, Store.called, Store.found]
    rcases s.store.disturbances (.receipt :: .begin :: s.store.calls) with _ | e | _
    · dsimp only
      cases s.store.ledger.recorded key type shape <;> rfl
    · rfl
    · rfl
  rw [bind_apply, Work.begin, ask_call]
  rcases s.store.disturbances (.begin :: s.store.calls) with _ | e | _
  · exact hbegun
  · rfl
  · exact hbegun

/-- A unit of work begins and looks for a recorded result: it is cut short, or goes on with what the
store lets it find. -/
theorem begin_replay_cases {key : String} {type : RequestType} {shape : Shape α}
    {f : Option (Answer α) → Attempt β} {s s' : Session} {r : Except LedgerError β}
    (h : (do ask Work.begin; let found ← replay key type shape; f found) s = (r, s')) :
    (s.store.disturbances.Fails ∧ (∃ e, r = .error e) ∧ s.store.Extends s'.store ∧
        s'.store.ledger = s.store.ledger) ∨
      (∃ e, s.store.found key type shape = .error e ∧ r = .error e ∧ s' = lookedUp s) ∨
      ∃ found, s.store.found key type shape = .ok found ∧ f found (lookedUp s) = (r, s') := by
  rw [begin_replay_apply] at h
  split at h
  next e hfails =>
    cases h
    exact Or.inl ⟨⟨_, e, hfails⟩, ⟨_, rfl⟩, s.store.extends_called _, rfl⟩
  split at h
  next e hfails =>
    cases h
    exact Or.inl ⟨⟨_, e, hfails⟩, ⟨_, rfl⟩,
      (s.store.extends_called _).trans (Store.extends_called _ _), rfl⟩
  cases hfound : s.store.found key type shape with
  | error e =>
      rw [hfound] at h
      cases h
      exact Or.inr (Or.inl ⟨e, rfl, rfl, rfl⟩)
  | ok found =>
      rw [hfound] at h
      exact Or.inr (Or.inr ⟨found, rfl, h⟩)

/-- An attempt at a command is cut short by a failure of the store, or ends as planned; if it meets
a duplicate of its key, it has looked for a recorded result before. -/
def Resolves (x : Attempt (Answer α)) (s : Session)
    (planned : Except LedgerError (Answer α × Ledger)) : Prop :=
  ∀ r s', x s = (r, s') → s.store.Extends s'.store ∧
    ((s.store.disturbances.Fails ∧ (∃ e, r = .error e) ∧ s'.store.ledger = s.store.ledger) ∨
      (Ends planned s.store.ledger r s'.store.ledger ∧
        ∀ k, r = .error (.store (.duplicate k)) → StoreCall.receipt ∈ s'.store.calls))

/-- An attempt that is refused has committed nothing. -/
theorem Resolves.ledger_of_error {x : Attempt (Answer α)} {s s' : Session} {e : LedgerError}
    {planned : Except LedgerError (Answer α × Ledger)} (hx : Resolves x s planned)
    (h : x s = (.error e, s')) : s'.store.ledger = s.store.ledger := by
  obtain ⟨-, ⟨-, -, hledger⟩ | ⟨hends, -⟩⟩ := hx _ s' h
  · exact hledger
  · rcases planned with e' | ⟨a, l⟩
    · exact hends.2
    · exact absurd hends.1 (by simp)

theorem Resolves.of_begin_replay {key : String} {type : RequestType} {shape : Shape α}
    {f : Option (Answer α) → Attempt (Answer α)} {p : Plan (Answer α)} (s : Session)
    (hfound : ∀ a, f (some a) = pure a) (hnone : Commits (f none) p) :
    Resolves (do ask Work.begin; let found ← replay key type shape; f found) s
      (p.unless (s.store.found key type shape) s.store.ledger) := by
  intro r s' h
  have hlooked : s.store.Extends (lookedUp s).store :=
    (s.store.extends_called _).trans (Store.extends_called _ _)
  have hreceipt : StoreCall.receipt ∈ (lookedUp s).store.calls := List.mem_cons_self
  rcases begin_replay_cases h with ⟨hfails, herror, hextends, hledger⟩ | ⟨e, hlookup, rfl, rfl⟩ |
    ⟨found, hlookup, h⟩
  · exact ⟨hextends, Or.inl ⟨hfails, herror, hledger⟩⟩
  · rw [hlookup]
    exact ⟨hlooked, Or.inr ⟨⟨rfl, rfl⟩, fun _ _ => hreceipt⟩⟩
  · rw [hlookup]
    cases found with
    | some a =>
        rw [hfound] at h
        cases h
        exact ⟨hlooked, Or.inr ⟨⟨rfl, rfl⟩, fun _ _ => hreceipt⟩⟩
    | none =>
        obtain ⟨hextends, hcut | hends⟩ := hnone _ _ _ h
        · exact ⟨hlooked.trans hextends, Or.inl hcut⟩
        · exact ⟨hlooked.trans hextends,
            Or.inr ⟨hends, fun _ _ => hextends.calls.subset hreceipt⟩⟩

theorem openAccount_resolves (c : OpenAccount) (key : String) (now : Timestamp) (draw : Draw)
    (s : Session) : Resolves (openAccount c key now draw) s
      ((c.plan key now draw).unless (s.store.found key .openAccount Account.shape)
        s.store.ledger) := by
  refine Resolves.of_begin_replay s (fun a => rfl) ?_
  refine Commits.bind (Follows.obey _) fun account => ?_
  refine Commits.bind (Follows.writes _ _) fun _ => ?_
  refine Commits.bind (Follows.forM _ fun b => Follows.writes _ _) fun _ => ?_
  exact Commits.bind (Follows.writes _ _) fun _ => Commits.commit _

/-- A rule that is checked before anything else touches neither the plan nor the store. -/
theorem Resolves.obey_bind {rule : Except Refusal β} {f : β → Attempt (Answer α)}
    {q : β → Plan (Answer α)} {s : Session}
    (hrest : ∀ b, Resolves (f b) s (q b s.store.ledger)) :
    Resolves (obey rule >>= f) s ((Plan.obey rule >>= q) s.store.ledger) := by
  intro r s' h
  cases rule with
  | ok b => exact hrest b r s' h
  | error e =>
      cases h
      exact ⟨Store.Extends.refl _, Or.inr ⟨⟨rfl, rfl⟩, by simp⟩⟩

theorem applyTransaction_resolves (c : ApplyTransaction) (key : String) (now : Timestamp)
    (draw : Draw) (s : Session) : Resolves (applyTransaction c key now draw) s
      (c.plan (s.store.found key .applyTransaction Applied.shape) key now draw
        s.store.ledger) := by
  refine Resolves.obey_bind fun amount => Resolves.obey_bind fun _ => ?_
  refine Resolves.of_begin_replay s (fun a => rfl) ?_
  refine Commits.bind (Follows.reads _ _) fun _ => ?_
  refine Commits.bind (Follows.demand _ _) fun _ => ?_
  refine Commits.bind (Follows.reads _ _) fun _ => ?_
  refine Commits.bind (Follows.demand _ _) fun current => ?_
  refine Commits.bind (Follows.obey _) fun balance => ?_
  refine Commits.bind (Follows.writes _ _) fun _ => ?_
  refine Commits.bind (Follows.writes _ _) fun _ => ?_
  exact Commits.bind (Follows.writes _ _) fun _ => Commits.commit _

/-! ## Duplicates -/

end Attempt

/-- A receipt is overlooked although one has been looked for before. -/
def Disturbances.OverlooksAgain (d : Disturbances) : Prop :=
  ∃ calls, StoreCall.receipt ∈ calls ∧ d (.receipt :: calls) = some .overlooks

theorem Disturbances.not_overlooksAgain_none : ¬ Disturbances.none.OverlooksAgain := by
  rintro ⟨calls, -, h⟩
  cases h

theorem Disturbances.not_overlooksAgain_once (disturbance : Disturbance) :
    ¬ (Disturbances.once .receipt disturbance).OverlooksAgain := by
  rintro ⟨calls, hmem, h⟩
  simp [once, hmem] at h

/-- The end that is planned, unless it is a duplicate of the key: then what is recorded under the
key, which has to be there. -/
def Plan.orRecorded (planned : Except LedgerError (Answer α × Ledger)) (key : String)
    (type : RequestType) (shape : Shape α) (l : Ledger) : Except LedgerError (Answer α × Ledger) :=
  match planned with
  | .error (.store (.duplicate _)) =>
    (Plan.demand none (.store (.corrupt
      s!"duplicate reported for '{key}' but no processed record exists"))).unless
        (l.recorded key type shape) l
  | other => other

namespace Attempt

theorem replayCommitted_resolves (key : String) (type : RequestType) (shape : Shape α)
    (s : Session) : Resolves (replayCommitted key type shape) s
      ((Plan.demand none (.store (.corrupt
        s!"duplicate reported for '{key}' but no processed record exists"))).unless
          (s.store.found key type shape) s.store.ledger) :=
  Resolves.of_begin_replay s (fun _ => rfl) fun s r s' h => by
    cases h
    exact ⟨Store.Extends.refl _, Or.inr ⟨rfl, rfl⟩⟩

/-- Looking once more for a recorded result leaves the ledger as it is, and finds nothing else. -/
theorem replayCommitted_quiet {key : String} {type : RequestType} {shape : Shape α} {s s' : Session}
    {r : Except LedgerError (Answer α)} (h : replayCommitted key type shape s = (r, s')) :
    s'.store.ledger = s.store.ledger ∧
      ∀ a, r = .ok a → s.store.ledger.recorded key type shape = .ok (some a) := by
  obtain ⟨-, ⟨-, ⟨e, rfl⟩, hledger⟩ | ⟨hends, -⟩⟩ :=
    replayCommitted_resolves key type shape s r s' h
  · exact ⟨hledger, by simp⟩
  simp only [Plan.unless] at hends
  rcases hfound : s.store.found key type shape with e | _ | a <;> rw [hfound] at hends
  · exact ⟨hends.2, by rw [hends.1]; simp⟩
  · exact ⟨hends.2, by rw [hends.1]; simp⟩
  · refine ⟨hends.2, ?_⟩
    rw [hends.1]
    rintro b ⟨⟩
    exact Store.recorded_of_found hfound

theorem found_again {s s' : Store} (hextends : s.Extends s') (hledger : s'.ledger = s.ledger)
    (hreceipt : StoreCall.receipt ∈ s'.calls) (key : String) (type : RequestType)
    (shape : Shape α) :
    s.disturbances.OverlooksAgain ∨ s'.found key type shape = s.ledger.recorded key type shape := by
  simp only [Store.found, hextends.disturbances, hledger]
  split
  next hd => exact Or.inl ⟨_, List.mem_cons_of_mem _ hreceipt, hd⟩
  next => exact Or.inr rfl

/-- How an attempt ends that was to end as planned: it is cut short because the store fails, or
overlooks a receipt for the second time, and then leaves the ledger as it was and answers with a
recorded result if with any; or it ends as planned, and with the recorded result if that is a
duplicate. -/
def EndsOrQuiet (planned : Except LedgerError (Answer α × Ledger)) (key : String)
    (type : RequestType) (shape : Shape α) (s : Store) (r : Except LedgerError (Answer α))
    (after : Ledger) : Prop :=
  ((s.disturbances.Fails ∨ s.disturbances.OverlooksAgain) ∧ after = s.ledger ∧
      ∀ a, r = .ok a → s.ledger.recorded key type shape = .ok (some a)) ∨
    Ends (Plan.orRecorded planned key type shape s.ledger) s.ledger r after

/-- Where no call fails and no receipt is overlooked twice, an attempt ends as planned or with the
recorded result. -/
theorem EndsOrQuiet.ends {planned : Except LedgerError (Answer α × Ledger)} {key : String}
    {type : RequestType} {shape : Shape α} {s : Store} {r : Except LedgerError (Answer α)}
    {after : Ledger} (h : EndsOrQuiet planned key type shape s r after)
    (hfails : ¬ s.disturbances.Fails) (hagain : ¬ s.disturbances.OverlooksAgain) :
    Ends (Plan.orRecorded planned key type shape s.ledger) s.ledger r after := by
  rcases h with ⟨hcut | hoverlooks, -⟩ | hends
  · exact absurd hcut hfails
  · exact absurd hoverlooks hagain
  · exact hends

/-- An attempt that meets a duplicate looks for the recorded result once more. -/
theorem Resolves.duplicate {planned : Except LedgerError (Answer α × Ledger)} {key : String}
    {type : RequestType} {shape : Shape α} {x : Attempt (Answer α)} {s s₁ s' : Session} {k : String}
    {r : Except LedgerError (Answer α)} (hx : Resolves x s planned)
    (hfirst : x s = (.error (.store (.duplicate k)), s₁))
    (h : replayCommitted key type shape s₁ = (r, s')) :
    EndsOrQuiet planned key type shape s.store r s'.store.ledger := by
  obtain ⟨hextends, hend⟩ := hx _ s₁ hfirst
  have hledger := hx.ledger_of_error hfirst
  have hquiet := replayCommitted_quiet h
  rw [hledger] at hquiet
  -- A receipt has been looked for, so only one that is overlooked again stays hidden.
  rcases hend with ⟨hfails, -, -⟩ | ⟨hends, hreceipt⟩
  · exact Or.inl ⟨Or.inl hfails, hquiet⟩
  obtain ⟨-, ⟨hfails, -, -⟩ | ⟨hagain, -⟩⟩ := replayCommitted_resolves key type shape s₁ r s' h
  · rw [hextends.disturbances] at hfails
    exact Or.inl ⟨Or.inl hfails, hquiet⟩
  rcases found_again hextends hledger (hreceipt k rfl) key type shape with hoverlooks | hfound
  · exact Or.inl ⟨Or.inr hoverlooks, hquiet⟩
  · rw [hfound, hledger] at hagain
    rcases planned with e | ⟨a, l⟩
    · cases hends.1
      exact Or.inr hagain
    · exact absurd hends.1 (by simp)

theorem resolvingDuplicates_cases {x : Attempt (Answer α)} {s s' : Session}
    {planned : Except LedgerError (Answer α × Ledger)} (hx : Resolves x s planned) {key : String}
    {type : RequestType} {shape : Shape α} {r : Except LedgerError (Answer α)}
    (h : resolvingDuplicates key type shape x s = (r, s')) :
    EndsOrQuiet planned key type shape s.store r s'.store.ledger := by
  rw [resolvingDuplicates] at h
  rcases hfirst : x s with ⟨r₁, s₁⟩
  rw [hfirst] at h
  split at h
  next k s₂ heq =>
    cases heq
    exact hx.duplicate hfirst h
  next hother =>
    cases h
    obtain ⟨-, ⟨hfails, ⟨e, rfl⟩, hledger⟩ | ⟨hends, -⟩⟩ := hx r s' hfirst
    · exact Or.inl ⟨Or.inl hfails, hledger, by simp⟩
    · refine Or.inr ?_
      unfold Plan.orRecorded
      split
      next k => exact absurd (congrArg (·, s') hends.1) (hother k s')
      next => exact hends

end Attempt

namespace Store

theorem openAccount_cases (s : Store) (c : OpenAccount) (key : String) (now : Timestamp)
    (draw : Draw) :
    Attempt.EndsOrQuiet
      ((c.plan key now draw).unless (s.found key .openAccount Account.shape) s.ledger) key
      .openAccount Account.shape s (s.openAccount c key now draw).1
      (s.openAccount c key now draw).2.ledger :=
  Attempt.resolvingDuplicates_cases (Attempt.openAccount_resolves c key now draw ⟨s, s.ledger⟩) rfl

theorem applyTransaction_cases (s : Store) (c : ApplyTransaction) (key : String) (now : Timestamp)
    (draw : Draw) :
    Attempt.EndsOrQuiet
      (c.plan (s.found key .applyTransaction Applied.shape) key now draw s.ledger) key
      .applyTransaction Applied.shape s (s.applyTransaction c key now draw).1
      (s.applyTransaction c key now draw).2.ledger :=
  Attempt.resolvingDuplicates_cases
    (Attempt.applyTransaction_resolves c key now draw ⟨s, s.ledger⟩) rfl

end Store

end KeyedLedger
