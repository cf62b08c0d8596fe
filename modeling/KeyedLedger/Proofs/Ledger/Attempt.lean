import KeyedLedger.Ledger.Engine

/-! # Attempts and their plans

An attempt at a command talks to a store of which any call may fail. Its plan says what it does when
none fails: it reads and writes a draft of the ledger, or refuses. An attempt follows its plan when
it either is cut short by a failure or does to its draft what the plan does, and in no case touches
what is committed. An attempt that ends in a commit commits exactly the draft of its plan, or
nothing.

Both relations are kept by chaining, so they are read off an attempt call by call.
-/

namespace KeyedLedger

/-- Some call is made to fail. -/
def Disturbances.Fails (d : Disturbances) : Prop :=
  ∃ calls e, d calls = some (.fails e)

theorem Disturbances.not_fails_none : ¬ Disturbances.none.Fails := by
  rintro ⟨calls, e, h⟩
  cases h

theorem Disturbances.not_fails_overlooks (kind : StoreCall) :
    ¬ (Disturbances.once kind .overlooks).Fails := by
  rintro ⟨_ | ⟨call, before⟩, e, h⟩
  · simp [once] at h
  · simp only [once] at h
    split at h <;> simp at h

namespace Store

/-- The store once a call to it has been noted. -/
def called (s : Store) (call : StoreCall) : Store :=
  { s with calls := call :: s.calls }

/-- The same store after more calls to it, whatever has been committed. -/
structure Extends (s s' : Store) : Prop where
  disturbances : s'.disturbances = s.disturbances
  calls : s.calls <:+ s'.calls

theorem Extends.refl (s : Store) : s.Extends s :=
  ⟨rfl, List.suffix_refl _⟩

theorem Extends.trans {s s' s'' : Store} (hfirst : s.Extends s') (hsecond : s'.Extends s'') :
    s.Extends s'' :=
  ⟨hsecond.disturbances.trans hfirst.disturbances, hfirst.calls.trans hsecond.calls⟩

theorem extends_called (s : Store) (call : StoreCall) : s.Extends (s.called call) :=
  ⟨rfl, List.suffix_cons call s.calls⟩

end Store

/-- The session once a call to its store has been noted. -/
def Session.called (s : Session) (call : StoreCall) : Session :=
  { s with store := s.store.called call }

/-- What an attempt does to a draft when no call fails. -/
abbrev Plan := StateT Ledger (Except LedgerError)

namespace Plan

variable {α β : Type}

/-- Reads the draft. -/
def reads (f : Ledger → α) : Plan α := fun l =>
  .ok (f l, l)

/-- Writes the draft. -/
def writes (f : Ledger → Except StoreError Ledger) : Plan Unit := fun l =>
  match f l with
  | .ok draft => .ok ((), draft)
  | .error e => .error (.ofStore e)

/-- Obeys a rule of the domain. -/
def obey (rule : Except Refusal α) : Plan α := fun l =>
  match rule with
  | .ok a => .ok (a, l)
  | .error r => .error (.refused r)

/-- Takes what is there, or refuses. -/
def demand (found : Option α) (otherwise : LedgerError) : Plan α := fun l =>
  match found with
  | some a => .ok (a, l)
  | none => .error otherwise

theorem bind_apply (p : Plan α) (q : α → Plan β) (l : Ledger) :
    (p >>= q) l = match p l with
      | .ok (a, draft) => q a draft
      | .error e => .error e := by
  change (p l >>= fun x => q x.1 x.2) = _
  rcases p l with _ | ⟨_, _⟩ <;> rfl

end Plan

namespace Attempt

variable {α β : Type}

theorem bind_apply (x : Attempt α) (f : α → Attempt β) (s : Session) :
    (x >>= f) s = match x s with
      | (.ok a, s') => f a s'
      | (.error e, s') => (.error e, s') := by
  change ExceptT.bindCont f (x s).1 (x s).2 = _
  rcases x s with ⟨_ | _, _⟩ <;> rfl

theorem ask_call (c : StoreCall) (act : Work α) (s : Session) :
    ask (Work.call c act) s = match s.store.disturbances (c :: s.store.calls) with
      | some (.fails e) => (.error (.ofStore e), s.called c)
      | _ => ask act (s.called c) := by
  simp only [ask, Work.call, Store.note]
  rcases s.store.disturbances (c :: s.store.calls) with _ | _ | _ <;> rfl

/-! ## Following a plan -/

/-- The end of an attempt as its plan foresees it, the draft included. -/
def Reports (planned : Except LedgerError (α × Ledger)) (r : Except LedgerError α)
    (draft : Ledger) : Prop :=
  match planned with
  | .ok (a, l) => r = .ok a ∧ draft = l
  | .error e => r = .error e

/-- An attempt is cut short by a failure of the store or does what the plan does, and commits
nothing. -/
def Follows (x : Attempt α) (p : Plan α) : Prop :=
  ∀ s r s', x s = (r, s') → s.store.Extends s'.store ∧ s'.store.ledger = s.store.ledger ∧
    ((s.store.disturbances.Fails ∧ ∃ e, r = .error e) ∨ Reports (p s.draft) r s'.draft)

/-- The end of an attempt as its plan foresees it: its draft is committed unless it is refused. -/
def Ends (planned : Except LedgerError (α × Ledger)) (before : Ledger) (r : Except LedgerError α)
    (after : Ledger) : Prop :=
  match planned with
  | .ok (a, l) => r = .ok a ∧ after = l
  | .error e => r = .error e ∧ after = before

/-- An attempt is cut short by a failure of the store and commits nothing, or does what the plan
does and commits its draft. -/
def Commits (x : Attempt α) (p : Plan α) : Prop :=
  ∀ s r s', x s = (r, s') → s.store.Extends s'.store ∧
    ((s.store.disturbances.Fails ∧ (∃ e, r = .error e) ∧ s'.store.ledger = s.store.ledger) ∨
      Ends (p s.draft) s.store.ledger r s'.store.ledger)

theorem Follows.obey (rule : Except Refusal α) : Follows (obey rule) (Plan.obey rule) := by
  intro s r s' h
  cases rule with
  | ok a =>
      cases h
      exact ⟨Store.Extends.refl _, rfl, Or.inr ⟨rfl, rfl⟩⟩
  | error e =>
      cases h
      exact ⟨Store.Extends.refl _, rfl, Or.inr rfl⟩

theorem Follows.demand (found : Option α) (otherwise : LedgerError) :
    Follows (demand found otherwise) (Plan.demand found otherwise) := by
  intro s r s' h
  cases found with
  | some a =>
      cases h
      exact ⟨Store.Extends.refl _, rfl, Or.inr ⟨rfl, rfl⟩⟩
  | none =>
      cases h
      exact ⟨Store.Extends.refl _, rfl, Or.inr rfl⟩

/-- A call either is made to fail, or acts on the session in which it has been noted. -/
theorem ask_call_cases {c : StoreCall} {act : Work α} {s s' : Session} {r : Except LedgerError α}
    (h : ask (Work.call c act) s = (r, s')) :
    (s.store.disturbances.Fails ∧ (∃ e, r = .error e) ∧ s' = s.called c) ∨
      ask act (s.called c) = (r, s') := by
  rw [ask_call] at h
  split at h
  next e hfails =>
    cases h
    exact Or.inl ⟨⟨_, e, hfails⟩, ⟨_, rfl⟩, rfl⟩
  · exact Or.inr h

theorem Follows.reads (c : StoreCall) (f : Ledger → α) :
    Follows (ask (Work.call c (Work.reads f))) (Plan.reads f) := by
  intro s r s' h
  rcases ask_call_cases h with ⟨hfails, herror, rfl⟩ | h
  · exact ⟨s.store.extends_called c, rfl, Or.inl ⟨hfails, herror⟩⟩
  · cases h
    exact ⟨s.store.extends_called c, rfl, Or.inr ⟨rfl, rfl⟩⟩

theorem Follows.writes (c : StoreCall) (f : Ledger → Except StoreError Ledger) :
    Follows (ask (Work.call c (Work.writes f))) (Plan.writes f) := by
  intro s r s' h
  rcases ask_call_cases h with ⟨hfails, herror, rfl⟩ | h
  · exact ⟨s.store.extends_called c, rfl, Or.inl ⟨hfails, herror⟩⟩
  · simp only [ask, Work.writes, Session.called] at h
    simp only [Plan.writes, Reports]
    cases hf : f s.draft with
    | ok draft =>
        rw [hf] at h
        cases h
        exact ⟨s.store.extends_called c, rfl, Or.inr ⟨rfl, rfl⟩⟩
    | error e =>
        rw [hf] at h
        cases h
        exact ⟨s.store.extends_called c, rfl, Or.inr rfl⟩

theorem Follows.pure (a : α) : Follows (Pure.pure a) (Pure.pure a : Plan α) := by
  intro s r s' h
  cases h
  exact ⟨Store.Extends.refl _, rfl, Or.inr ⟨rfl, rfl⟩⟩

/-- A chain of attempts of which the first follows its plan ends with the first, or goes on with the
rest where the plan does. -/
theorem Follows.bind_cases {x : Attempt α} {p : Plan α} {f : α → Attempt β} {s s' : Session}
    {r : Except LedgerError β} (hfirst : Follows x p) (q : α → Plan β) (h : (x >>= f) s = (r, s')) :
    (∃ e, r = .error e ∧ s.store.Extends s'.store ∧ s'.store.ledger = s.store.ledger ∧
        (s.store.disturbances.Fails ∨ (p >>= q) s.draft = .error e)) ∨
      ∃ a s₁, f a s₁ = (r, s') ∧ s.store.Extends s₁.store ∧ s₁.store.ledger = s.store.ledger ∧
        (p >>= q) s.draft = q a s₁.draft := by
  rw [bind_apply] at h
  rw [Plan.bind_apply]
  rcases hx : x s with ⟨r₁, s₁⟩
  obtain ⟨hextends, hledger, hend⟩ := hfirst s r₁ s₁ hx
  rw [hx] at h
  rcases r₁ with e | a
  · cases h
    refine Or.inl ⟨e, rfl, hextends, hledger, ?_⟩
    rcases hend with ⟨hfails, -⟩ | hreports
    · exact Or.inl hfails
    rcases hp : p s.draft with e' | ⟨a, draft⟩ <;> rw [hp] at hreports
    · cases hreports
      exact Or.inr rfl
    · exact absurd hreports.1 (by simp)
  · refine Or.inr ⟨a, s₁, h, hextends, hledger, ?_⟩
    rcases hend with ⟨-, e, herror⟩ | hreports
    · simp at herror
    rcases hp : p s.draft with e' | ⟨b, draft⟩ <;> rw [hp] at hreports
    · exact absurd hreports (by simp [Reports])
    · obtain ⟨hvalue, rfl⟩ := hreports
      cases hvalue
      rfl

theorem Follows.bind {x : Attempt α} {p : Plan α} {f : α → Attempt β} {q : α → Plan β}
    (hfirst : Follows x p) (hsecond : ∀ a, Follows (f a) (q a)) : Follows (x >>= f) (p >>= q) := by
  intro s r s' h
  rcases hfirst.bind_cases q h with ⟨e, rfl, hextends, hledger, hend⟩ |
    ⟨a, s₁, hrest, hextends, hledger, hplan⟩
  · refine ⟨hextends, hledger, ?_⟩
    rcases hend with hfails | hplan
    · exact Or.inl ⟨hfails, e, rfl⟩
    · rw [hplan]
      exact Or.inr rfl
  · obtain ⟨hextends', hledger', hend⟩ := hsecond a s₁ r s' hrest
    rw [hextends.disturbances] at hend
    rw [hplan]
    exact ⟨hextends.trans hextends', hledger'.trans hledger, hend⟩

theorem Follows.forM {f : α → Attempt Unit} {p : α → Plan Unit} (items : List α)
    (hitem : ∀ a, Follows (f a) (p a)) : Follows (items.forM f) (items.forM p) := by
  induction items with
  | nil => exact Follows.pure ()
  | cons a rest ih => exact (hitem a).bind fun _ => ih

theorem Commits.bind {x : Attempt α} {p : Plan α} {f : α → Attempt β} {q : α → Plan β}
    (hfirst : Follows x p) (hsecond : ∀ a, Commits (f a) (q a)) : Commits (x >>= f) (p >>= q) := by
  intro s r s' h
  rcases hfirst.bind_cases q h with ⟨e, rfl, hextends, hledger, hend⟩ |
    ⟨a, s₁, hrest, hextends, hledger, hplan⟩
  · refine ⟨hextends, ?_⟩
    rcases hend with hfails | hplan
    · exact Or.inl ⟨hfails, ⟨e, rfl⟩, hledger⟩
    · rw [hplan]
      exact Or.inr ⟨rfl, hledger⟩
  · obtain ⟨hextends', hend⟩ := hsecond a s₁ r s' hrest
    rw [hextends.disturbances, hledger] at hend
    rw [hplan]
    exact ⟨hextends.trans hextends', hend⟩

theorem Commits.commit (a : α) :
    Commits (do ask Work.commit; Pure.pure a) (Pure.pure a : Plan α) := by
  intro s r s' h
  rw [bind_apply] at h
  rcases hcommit : ask Work.commit s with ⟨r₁, s₁⟩
  rw [hcommit] at h
  rcases ask_call_cases hcommit with ⟨hfails, ⟨e, rfl⟩, rfl⟩ | hact
  · cases h
    exact ⟨s.store.extends_called _, Or.inl ⟨hfails, ⟨e, rfl⟩, rfl⟩⟩
  · cases hact
    cases h
    exact ⟨⟨rfl, List.suffix_cons _ _⟩, Or.inr ⟨rfl, rfl⟩⟩

end Attempt

end KeyedLedger
