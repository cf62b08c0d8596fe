import KeyedLedger.Proofs.Ledger.Plan

/-! # Why a transaction is refused

A transaction is refused because of what it says, because of what is stored, because its key stands
for something else, or because the store fails (`ApplyTransaction.RefusedFor`). This holds on any
ledger, sound or not, and wherever the store fails: it is read off the attempt call by call, with
what an attempt may be refused for as a set of reasons that is the same for all its parts.

If its amount and description are in order, only two of the reasons are reported as a failed
validation.
-/

namespace KeyedLedger

variable {α β : Type}

namespace Session

/-- Nothing has been committed over a ledger. -/
def Over (l : Ledger) (s : Session) : Prop :=
  s.store.ledger = l

/-- A unit of work has begun on a ledger, and has not written yet. -/
def Begun (l : Ledger) (s : Session) : Prop :=
  s.store.ledger = l ∧ s.draft = l

end Session

namespace Attempt

/-- An attempt has come to a session as wanted, or is refused for one of the given reasons with
nothing committed. -/
def Lands (reason : LedgerError → Prop) (l : Ledger) (after : Session → Prop) :
    Except LedgerError α × Session → Prop
  | (.ok _, s) => after s
  | (.error e, s) => reason e ∧ s.Over l

theorem Lands.mono {reason : LedgerError → Prop} {l : Ledger} {after after' : Session → Prop}
    {o : Except LedgerError α × Session} (h : Lands reason l after o)
    (hafter : ∀ s, after s → after' s) : Lands reason l after' o := by
  rcases o with ⟨e | a, s⟩
  · exact h
  · exact hafter s h

/-- From every session as before, an attempt comes to one as after, or is refused for one of the
given reasons with nothing committed. -/
def Confined (reason : LedgerError → Prop) (l : Ledger) (before : Session → Prop) (x : Attempt α)
    (after : Session → Prop) : Prop :=
  ∀ s, before s → Lands reason l after (x s)

theorem obey_ok_bind (a : α) (f : α → Attempt β) : (obey (.ok a) >>= f) = f a :=
  rfl

theorem demand_some_bind (a : α) (otherwise : LedgerError) (f : α → Attempt β) :
    (demand (some a) otherwise >>= f) = f a :=
  rfl

variable {reason : LedgerError → Prop} {l : Ledger} {before middle after : Session → Prop}

theorem Confined.bind {x : Attempt α} {f : α → Attempt β}
    (hfirst : Confined reason l before x middle)
    (hrest : ∀ a, Confined reason l middle (f a) after) :
    Confined reason l before (x >>= f) after := by
  intro s hs
  have hx := hfirst s hs
  rw [bind_apply]
  rcases hresult : x s with ⟨e | a, s'⟩ <;> rw [hresult] at hx
  · exact hx
  · exact hrest a s' hx

theorem Confined.pure (a : α) : Confined reason l before (Pure.pure a) before :=
  fun _ hs => hs

theorem Confined.throw {e : LedgerError} (he : reason e) :
    Confined reason l (Session.Over l) (throw e : Attempt α) after :=
  fun _ hs => ⟨he, hs⟩

theorem Confined.obey {rule : Except Refusal α} (h : ∀ r, rule = .error r → reason (.refused r)) :
    Confined reason l (Session.Over l) (obey rule) (Session.Over l) := by
  cases rule with
  | ok a => exact Confined.pure a
  | error r => exact Confined.throw (h r rfl)

theorem Confined.demand (found : Option α) {otherwise : LedgerError} (h : reason otherwise) :
    Confined reason l (Session.Over l) (demand found otherwise) (Session.Over l) := by
  cases found with
  | some a => exact Confined.pure a
  | none => exact Confined.throw h

/-- A unit of work that has begun is over the same ledger. -/
theorem Confined.begun {x : Attempt α} (h : Confined reason l (Session.Over l) x after) :
    Confined reason l (Session.Begun l) x after :=
  fun s hs => h s hs.1

section Store

variable (hstore : ∀ e, reason (.ofStore e))
include hstore

theorem Confined.call {c : StoreCall} {act : Work α} (hover : ∀ s, before s → s.Over l)
    (hact : ∀ s, before s → Lands reason l after (ask act (s.called c))) :
    Confined reason l before (ask (Work.call c act)) after := by
  intro s hs
  rw [ask_call]
  split
  next e hfails => exact ⟨hstore e, hover s hs⟩
  next => exact hact s hs

/-- Before anything is written, what is read is that of the ledger. -/
theorem Confined.bind_reads {c : StoreCall} {f : Ledger → α} {g : α → Attempt β}
    (h : Confined reason l (Session.Begun l) (g (f l)) after) :
    Confined reason l (Session.Begun l) (ask (Work.call c (Work.reads f)) >>= g) after := by
  rintro s ⟨hledger, hdraft⟩
  have hread : Lands reason l after ((ask (Work.reads f) >>= g) (s.called c)) := by
    change Lands reason l after (g (f s.draft) (s.called c))
    rw [hdraft]
    exact h _ ⟨hledger, hdraft⟩
  rw [bind_apply] at hread ⊢
  rw [ask_call]
  rcases s.store.disturbances (c :: s.store.calls) with _ | e | _
  · exact hread
  · exact ⟨hstore e, hledger⟩
  · exact hread

theorem Confined.writes (c : StoreCall) (f : Ledger → Except StoreError Ledger) :
    Confined reason l (Session.Over l) (ask (Work.call c (Work.writes f))) (Session.Over l) := by
  refine Confined.call hstore (fun _ hs => hs) fun s hs => ?_
  simp only [ask, Work.writes]
  cases f (s.called c).draft with
  | ok draft => exact hs
  | error e => exact ⟨hstore e, hs⟩

theorem Confined.begin :
    Confined reason l (Session.Over l) (ask Work.begin) (Session.Begun l) :=
  Confined.call hstore (fun _ hs => hs) fun _ hs => ⟨hs, hs⟩

theorem Confined.commit :
    Confined reason l (Session.Over l) (ask Work.commit) fun _ => True :=
  Confined.call hstore (fun _ hs => hs) fun _ _ => trivial

/-- A record is looked up on what is committed. It is refused if it is of another type. -/
theorem Confined.replay {key : String} {type : RequestType} (shape : Shape α)
    (hother : ∀ r, l.receipt? key = some r → r.requestType ≠ type.code →
      reason (.keyTaken key r.requestType)) :
    Confined reason l (Session.Begun l) (replay key type shape) (Session.Begun l) := by
  rintro s ⟨hledger, hdraft⟩
  have hbegun : (s.called .receipt).Begun l := ⟨hledger, hdraft⟩
  rw [replay_apply, hdraft]
  split
  next e hfails => exact ⟨hstore e, hledger⟩
  next => exact hbegun
  next =>
    rw [Ledger.recorded]
    cases hr : l.receipt? key with
    | none => exact hbegun
    | some r =>
        dsimp only
        split
        next htype => exact ⟨hother r hr htype, hledger⟩
        next =>
          cases shape.decoder.ofJson r.result with
          | ok value => exact hbegun
          | error fault => exact ⟨hstore (.corrupt fault.message), hledger⟩

/-- Where a key has been reported as used, its record is looked up once more. -/
theorem Confined.resolvingDuplicates {key : String} {type : RequestType} (shape : Shape α)
    {x : Attempt (Answer α)}
    (hother : ∀ r, l.receipt? key = some r → r.requestType ≠ type.code →
      reason (.keyTaken key r.requestType))
    (hx : Confined reason l before x after) :
    Confined reason l before (resolvingDuplicates key type shape x) fun _ => True := by
  have hagain : Confined reason l (Session.Over l) (replayCommitted key type shape)
      (Session.Over l) := by
    refine Confined.bind (Confined.begin hstore) fun _ => ?_
    refine Confined.bind (Confined.replay hstore shape hother) fun found => ?_
    exact (Confined.demand found (hstore (.corrupt _))).begun
  intro s hs
  have hfirst := hx s hs
  simp only [Attempt.resolvingDuplicates]
  split
  next k s₁ heq =>
    rw [heq] at hfirst
    exact (hagain s₁ hfirst.2).mono fun _ _ => trivial
  next => exact hfirst.mono fun _ _ => trivial

end Store

end Attempt

/-! ## Transactions in order -/

theorem Balance.move_error {b : Balance} {direction : Direction} {amount : Decimal}
    {now : Timestamp} {r : Refusal} (h : b.move direction amount now = .error r) :
    r = .balanceLimitExceeded b.available amount ∨ r = .insufficientFunds b.available amount := by
  have hafter : b.availableAfter direction amount = .error r := by
    rw [move] at h
    cases havailable : b.availableAfter direction amount with
    | error r' =>
        rw [havailable] at h
        cases h
        rfl
    | ok available =>
        rw [havailable] at h
        cases h
  cases direction with
  | credit =>
      simp only [availableAfter] at hafter
      split at hafter
      · split at hafter <;> cases hafter
        exact Or.inl rfl
      · cases hafter
        exact Or.inl rfl
  | debit =>
      simp only [availableAfter] at hafter
      split at hafter
      · cases hsub : b.available.sub? amount <;> rw [hsub] at hafter <;> cases hafter
        exact Or.inl rfl
      · cases hafter
        exact Or.inr rfl

/-- What a transaction is refused for on a ledger: its amount or its description, a receipt of
another type under its key, an account or a currency that is not there, the available balance, or a
failure of the store. -/
inductive ApplyTransaction.RefusedFor (c : ApplyTransaction) (l : Ledger) (key : String) :
    LedgerError → Prop
  | amount {r : Refusal} : Money.validate c.amount = .error r → RefusedFor c l key (.refused r)
  | description {r : Refusal} : checkDescription c.description = .error r →
    RefusedFor c l key (.refused r)
  | taken {r : Receipt} : l.receipt? key = some r →
    r.requestType ≠ RequestType.applyTransaction.code →
    RefusedFor c l key (.keyTaken key r.requestType)
  | account : l.account? c.accountId = none → RefusedFor c l key (.accountNotFound c.accountId)
  | currency {owner : Account} : l.account? c.accountId = some owner →
    l.balance? c.accountId c.currency = none →
    RefusedFor c l key (.currencyNotFound c.accountId c.currency)
  | balance {amount : Decimal} {current : Balance} {now : Timestamp} {r : Refusal} :
    Money.validate c.amount = .ok amount → current.move c.direction amount now = .error r →
    RefusedFor c l key (.refused r)
  | store (e : StoreError) : RefusedFor c l key (.ofStore e)

/-- On any ledger, and wherever the store fails, a transaction is refused for one of these
reasons. -/
theorem Store.refusedFor_of_error {s : Store} {c : ApplyTransaction} {key : String}
    {now : Timestamp} {draw : Draw} {e : LedgerError}
    (h : (s.applyTransaction c key now draw).1 = .error e) : c.RefusedFor s.ledger key e := by
  have hstore : ∀ e, c.RefusedFor s.ledger key (.ofStore e) := .store
  have hother : ∀ r, s.ledger.receipt? key = some r →
      r.requestType ≠ RequestType.applyTransaction.code →
      c.RefusedFor s.ledger key (.keyTaken key r.requestType) := fun _ => .taken
  have happly : Attempt.Confined (c.RefusedFor s.ledger key) s.ledger (Session.Over s.ledger)
      (Attempt.applyTransaction c key now draw) fun _ => True := by
    rw [Attempt.applyTransaction]
    cases hamount : Money.validate c.amount with
    | error r => exact Attempt.Confined.throw (.amount hamount)
    | ok amount =>
    rw [Attempt.obey_ok_bind]
    refine .bind (.obey fun r hr => .description hr) fun _ => ?_
    refine .bind (.begin hstore) fun _ => ?_
    refine .bind (.replay hstore _ hother) fun found => ?_
    cases found with
    | some answer => exact fun _ _ => trivial
    | none =>
    refine .bind_reads hstore ?_
    cases haccount : s.ledger.account? c.accountId with
    | none => exact Attempt.Confined.begun (.throw (.account haccount))
    | some owner =>
    rw [Attempt.demand_some_bind]
    refine .bind_reads hstore ?_
    cases hcurrent : s.ledger.balance? c.accountId c.currency with
    | none => exact Attempt.Confined.begun (.throw (.currency haccount hcurrent))
    | some current =>
    rw [Attempt.demand_some_bind]
    refine Attempt.Confined.begun ?_
    refine .bind (.obey fun r hr => .balance hamount hr) fun balance => ?_
    refine .bind (.writes hstore _ _) fun _ => ?_
    refine .bind (.writes hstore _ _) fun _ => ?_
    refine .bind (.writes hstore _ _) fun _ => ?_
    exact .bind (.commit hstore) fun _ => .pure _
  have hlands := Attempt.Confined.resolvingDuplicates hstore Applied.shape hother happly
    ⟨s, s.ledger⟩ rfl
  rw [applyTransaction, run] at h
  rcases hresult : Attempt.resolvingDuplicates key .applyTransaction Applied.shape
    (Attempt.applyTransaction c key now draw) ⟨s, s.ledger⟩ with ⟨e' | a, s'⟩ <;>
    rw [hresult] at h hlands <;> cases h
  exact hlands.1

/-- What a transaction is refused for that counts as a failed validation: the balance would pass its
limit, or the key has a receipt of another type. -/
inductive ApplyTransaction.Invalidated (c : ApplyTransaction) (l : Ledger) (key : String) :
    LedgerError → Prop
  | limit (available : Decimal) :
    Invalidated c l key (.refused (.balanceLimitExceeded available c.amount))
  | taken {r : Receipt} : l.receipt? key = some r →
    r.requestType ≠ RequestType.applyTransaction.code →
    Invalidated c l key (.keyTaken key r.requestType)

theorem LedgerError.code_ofStore (e : StoreError) : (ofStore e).code ≠ .validationFailed := by
  cases e <;> simp [ofStore, code]

/-- On any ledger, and wherever the store fails, a transaction of a valid amount and with a
description that is not too long fails validation only for the limit of its balance or for its
key. -/
theorem Store.invalidated_of_error {s : Store} {c : ApplyTransaction} {key : String}
    {now : Timestamp} {draw : Draw} {e : LedgerError}
    (hamount : Money.validate c.amount = .ok c.amount)
    (hdescribed : checkDescription c.description = .ok ())
    (h : (s.applyTransaction c key now draw).1 = .error e) (hcode : e.code = .validationFailed) :
    c.Invalidated s.ledger key e := by
  cases refusedFor_of_error h with
  | amount hr => cases hamount.symm.trans hr
  | description hr => cases hdescribed.symm.trans hr
  | taken hreceipt htype => exact .taken hreceipt htype
  | account | currency => cases hcode
  | @balance amount current now r hvalid hmove =>
      cases hamount.symm.trans hvalid
      rcases Balance.move_error hmove with rfl | rfl
      · exact .limit current.available
      · cases hcode
  | store e => exact absurd hcode (LedgerError.code_ofStore e)

end KeyedLedger
