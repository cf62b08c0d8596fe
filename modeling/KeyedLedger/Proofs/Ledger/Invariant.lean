import KeyedLedger.Proofs.Ledger.History

/-! # What every history keeps

Balances are told apart by their identifiers, and by their accounts and currencies; each belongs to
an account, and is a number of cents that does not pass the maximum. On such a ledger, opening an
account appends rows, and posting a transaction replaces exactly one balance by one that integer
arithmetic tells.
-/

namespace KeyedLedger

open Money

/-- What a transaction that moves a balance leaves. -/
def ApplyTransaction.applied (c : ApplyTransaction) (current : Balance) (amount after : Nat)
    (key : String) (now : Timestamp) (draw : Draw) : Applied :=
  ⟨Attempt.record c (ofCents amount) (current.movedTo after now) key now draw,
    current.movedTo after now⟩

namespace Ledger

/-! ## Cents -/

/-- Every balance is a number of cents that does not pass the maximum. -/
def InCents (l : Ledger) : Prop :=
  ∀ b ∈ l.balances, ∃ m ≤ maxCents, b.available = ofCents m

/-- A balance of a ledger and the integers with which a posted transaction moves it. -/
structure Moves (l : Ledger) (c : ApplyTransaction) (key : String) (now : Timestamp) (draw : Draw)
    (a : Applied) (current : Balance) (available amount after : Nat) : Prop where
  stored : current ∈ l.balances
  account : current.accountId = c.accountId
  currency : current.currency = c.currency
  available_eq : current.available = ofCents available
  available_le : available ≤ maxCents
  amount_eq : c.amount.cents? = some amount
  amount_pos : 0 < amount
  amount_le : amount ≤ maxCents
  moved : c.direction.moved? available amount = some after
  applied : a = c.applied current amount after key now draw

variable {l : Ledger} {c : ApplyTransaction} {key : String} {now : Timestamp} {draw : Draw}

theorem stored_of_balance? {account : Identifier} {currency : Currency} {b : Balance}
    (h : l.balance? account currency = some b) :
    b ∈ l.balances ∧ b.accountId = account ∧ b.currency = currency :=
  ⟨List.mem_of_find?_eq_some h, by simpa using List.find?_some h⟩

theorem account?_of_mem {r : AccountRow} (hr : r ∈ l.accounts) :
    ∃ owner, l.account? r.id = some owner := by
  cases hfind : l.accounts.find? fun s => s.id = r.id with
  | none => simpa using List.find?_eq_none.mp hfind r hr
  | some s => exact ⟨_, by rw [account?, hfind]; rfl⟩

theorem balance?_of_mem {b : Balance} (hb : b ∈ l.balances) :
    ∃ current, l.balance? b.accountId b.currency = some current := by
  cases hfind : l.balance? b.accountId b.currency with
  | none => simpa using List.find?_eq_none.mp hfind b hb
  | some current => exact ⟨current, rfl⟩

theorem InCents.moves {a : Applied} (h : l.InCents) (hposts : l.Posts c key now draw a) :
    ∃ current available amount after, l.Moves c key now draw a current available amount after := by
  obtain ⟨valid, current, hvalid, hcurrent, hmove, hrecord⟩ := hposts.moved
  obtain ⟨hstored, haccount, hcurrency⟩ := stored_of_balance? hcurrent
  obtain ⟨available, havailable, hcents⟩ := h current hstored
  obtain ⟨amount, hamount, hpos, hle, rfl⟩ := validate_ok hvalid
  rw [Balance.move_eq _ _ hcents havailable hle] at hmove
  cases hmoved : c.direction.moved? available amount with
  | none => simp [hmoved] at hmove
  | some after =>
      simp only [hmoved] at hmove
      have hbalance := (Except.ok.inj hmove).symm
      have happlied : a = c.applied current amount after key now draw := by
        rw [hbalance] at hrecord
        cases a
        exact congrArg₂ Applied.mk hrecord hbalance
      exact ⟨current, available, amount, after, hstored, haccount, hcurrency, hcents, havailable,
        hamount, hpos, hle, hmoved, happlied⟩

theorem Moves.after_le {a : Applied} {current : Balance} {available amount after : Nat}
    (h : l.Moves c key now draw a current available amount after) : after ≤ maxCents :=
  (Direction.moved?_eq_some h.moved h.available_le).2

theorem Moves.balance {a : Applied} {current : Balance} {available amount after : Nat}
    (h : l.Moves c key now draw a current available amount after) :
    a.balance = current.movedTo after now := by
  rw [h.applied]
  rfl

theorem Moves.transaction {a : Applied} {current : Balance} {available amount after : Nat}
    (h : l.Moves c key now draw a current available amount after) :
    a.transaction = Attempt.record c (ofCents amount) a.balance key now draw := by
  rw [h.applied]
  rfl

theorem Moves.id_eq {a : Applied} {current : Balance} {available amount after : Nat}
    (h : l.Moves c key now draw a current available amount after) : a.balance.id = current.id := by
  rw [h.balance]
  rfl

theorem Opens.eq_opened {o : OpenAccount} {a : Account} (hopens : l.Opens o key now draw a)
    {b : Balance} (hb : b ∈ a.balances) :
    ∃ c, b = Balance.opened (draw.balance c) draw.account c now := by
  obtain ⟨currencies, -, rfl⟩ := Account.eq_of_opening hopens.opening
  obtain ⟨c, -, rfl⟩ := List.mem_map.mp hb
  exact ⟨c, rfl⟩

theorem InCents.opened {o : OpenAccount} {a : Account} (h : l.InCents)
    (hopens : l.Opens o key now draw a) : (l.opened a key now).InCents := by
  intro b hb
  rcases mem_foldl_upsert hb with hb | hb
  · obtain ⟨c, rfl⟩ := hopens.eq_opened hb
    exact ⟨0, by decide, zero_eq_ofCents⟩
  · exact h b hb

theorem InCents.posted {a : Applied} (h : l.InCents) (hposts : l.Posts c key now draw a) :
    (l.posted a key now).InCents := by
  intro b hb
  obtain ⟨current, available, amount, after, hmoves⟩ := h.moves hposts
  rcases mem_upsert hb with rfl | hb
  · rw [hmoves.balance]
    exact ⟨after, hmoves.after_le, rfl⟩
  · exact h b hb

theorem InCents.serve (h : l.InCents) (i : Instruction) : (l.serve i).2.InCents :=
  serve_induction h (fun _ _ hopens => h.opened hopens) (fun _ _ hposts => h.posted hposts)

theorem inCents_after (history : List Instruction) : (({} : Ledger).after history).InCents :=
  after_of_serve (fun _ i h => h.serve i) (fun b hb => absurd hb (by simp)) history

/-! ## Distinct balances -/

end Ledger

/-- The account and the currency of a balance. -/
def Balance.pair (b : Balance) : Identifier × Currency :=
  (b.accountId, b.currency)

namespace Ledger

/-- The balances of a ledger are in cents and are told apart by their identifiers, and by their
accounts and currencies; every balance has an account, and every account a balance. -/
structure Sound (l : Ledger) : Prop where
  cents : l.InCents
  distinct : (l.balances.map Balance.id).Nodup
  pairs : (l.balances.map Balance.pair).Nodup
  owner : ∀ b ∈ l.balances, ∃ r ∈ l.accounts, r.id = b.accountId
  holds : ∀ r ∈ l.accounts, ∃ b ∈ l.balances, b.accountId = r.id

theorem sound_empty : ({} : Ledger).Sound :=
  ⟨fun b hb => absurd hb (by simp), List.nodup_nil, List.nodup_nil, by simp, by simp⟩

variable {l : Ledger} {c : ApplyTransaction} {key : String} {now : Timestamp} {draw : Draw}

theorem Sound.balance?_of_stored (hsound : l.Sound) {b : Balance} (hb : b ∈ l.balances) :
    l.balance? b.accountId b.currency = some b := by
  obtain ⟨found, hfound⟩ := balance?_of_mem hb
  obtain ⟨hstored, haccount, hcurrency⟩ := stored_of_balance? hfound
  have hpair : found.pair = b.pair := Prod.ext haccount hcurrency
  rw [hfound, List.inj_on_of_nodup_map hsound.pairs hstored hb hpair]

/-- Posting a transaction replaces the balance it moves. -/
theorem Sound.balances_posted {a : Applied} {current : Balance} {available amount after : Nat}
    (hsound : l.Sound) (hmoves : l.Moves c key now draw a current available amount after) :
    (l.posted a key now).balances =
      l.balances.map fun b => if b.id = a.balance.id then a.balance else b :=
  upsert_of_present hsound.distinct ⟨current, hmoves.stored, hmoves.id_eq.symm⟩

/-- The balance with the identifier of the one that is moved is that one. -/
theorem Sound.eq_current {a : Applied} {current b : Balance} {available amount after : Nat}
    (hsound : l.Sound) (hmoves : l.Moves c key now draw a current available amount after)
    (hb : b ∈ l.balances) (hid : b.id = a.balance.id) : b = current :=
  List.inj_on_of_nodup_map hsound.distinct hb hmoves.stored (hid.trans hmoves.id_eq)

/-- Posting a transaction changes no balance in what an account or an identifier tells of it. -/
theorem Sound.map_posted {β : Type} {a : Applied} {current : Balance}
    {available amount after : Nat} (hsound : l.Sound)
    (hmoves : l.Moves c key now draw a current available amount after) (f : Balance → β)
    (hf : f a.balance = f current) : (l.posted a key now).balances.map f = l.balances.map f := by
  rw [hsound.balances_posted hmoves]
  refine map_replace f fun b hb hid => ?_
  rw [hsound.eq_current hmoves hb hid, hf]

theorem Sound.posted {a : Applied} (hsound : l.Sound) (hposts : l.Posts c key now draw a) :
    (l.posted a key now).Sound := by
  obtain ⟨current, available, amount, after, hmoves⟩ := hsound.cents.moves hposts
  have hpair : a.balance.pair = current.pair := by rw [hmoves.balance]; rfl
  refine ⟨hsound.cents.posted hposts, ?_, ?_, fun b hb => ?_, fun r hr => ?_⟩
  · rw [hsound.map_posted hmoves _ hmoves.id_eq]
    exact hsound.distinct
  · rw [hsound.map_posted hmoves _ hpair]
    exact hsound.pairs
  · rcases mem_upsert hb with rfl | hb
    · rw [hmoves.balance]
      exact hsound.owner current hmoves.stored
    · exact hsound.owner b hb
  · obtain ⟨b, hb, howner⟩ := hsound.holds r hr
    have hmem : b.accountId ∈ (l.posted a key now).balances.map Balance.accountId := by
      rw [hsound.map_posted hmoves _ (congrArg Prod.fst hpair)]
      exact List.mem_map_of_mem hb
    obtain ⟨b', hb', hsame⟩ := List.mem_map.mp hmem
    exact ⟨b', hb', hsame.trans howner⟩

/-- The stored balance with an identifier is at its version, so no update of it is late. -/
theorem Sound.updateBalance (hsound : l.Sound) {current b : Balance}
    (hstored : current ∈ l.balances) (hid : b.id = current.id) :
    l.updateBalance b current.version = .ok (l.insertBalance b) := by
  rw [Ledger.updateBalance, find?_of_mem hsound.distinct hstored hid.symm]
  exact if_pos rfl

/-- On a balance that is there, a valid amount is posted unless the move is refused or the key is
taken. -/
theorem Sound.posting_eq (hsound : l.Sound) {owner : Account} {current : Balance}
    {available amount : Nat} (howner : l.account? c.accountId = some owner)
    (hcurrent : l.balance? c.accountId c.currency = some current)
    (havailable : current.available = ofCents available) (havailable_le : available ≤ maxCents)
    (hamount : amount ≤ maxCents) :
    c.posting (ofCents amount) key now draw l =
      match c.direction.moved? available amount with
      | none => .error (.refused (c.direction.refusal current.available (ofCents amount)))
      | some after =>
        if (∀ t ∈ l.transactions, t.key ≠ key) ∧ l.receipt? key = none then
          .ok (⟨c.applied current amount after key now draw, false⟩,
            l.posted (c.applied current amount after key now draw) key now)
        else .error (.store (.duplicate key)) := by
  obtain ⟨hstored, -, -⟩ := stored_of_balance? hcurrent
  rw [ApplyTransaction.posting_apply, howner, hcurrent]
  dsimp only
  rw [Balance.move_eq _ _ havailable havailable_le hamount]
  cases c.direction.moved? available amount with
  | none => rfl
  | some after =>
      dsimp only
      rw [hsound.updateBalance (b := current.movedTo after now) hstored rfl]
      rfl

/-! ## Opening an account -/

section Opening

variable {o : OpenAccount} {a : Account}

theorem Opens.balances_of_fresh (hopens : l.Opens o key now draw a) (hfresh : draw.Fresh l) :
    (l.opened a key now).balances = l.balances ++ a.balances := by
  obtain ⟨currencies, hdistinct, rfl⟩ := Account.eq_of_opening hopens.opening
  refine foldl_upsert_of_new ?_ ?_
  · intro b hb b' hb'
    obtain ⟨c, -, rfl⟩ := List.mem_map.mp hb'
    exact hfresh.balance b hb c
  · rw [List.map_map]
    exact (Currency.nodup_of_distinct hdistinct).map hfresh.injective

theorem Opens.accounts_of_fresh (hopens : l.Opens o key now draw a) (hfresh : draw.Fresh l) :
    (l.opened a key now).accounts = l.accounts ++ [a.row] := by
  obtain ⟨currencies, -, rfl⟩ := Account.eq_of_opening hopens.opening
  exact upsert_of_new hfresh.account

theorem Sound.opened (hsound : l.Sound) (hopens : l.Opens o key now draw a)
    (hfresh : draw.Fresh l) : (l.opened a key now).Sound := by
  have hcents := hsound.cents.opened hopens
  have hbalances := hopens.balances_of_fresh hfresh
  have haccounts := hopens.accounts_of_fresh hfresh
  obtain ⟨currencies, hdistinct, rfl⟩ := Account.eq_of_opening hopens.opening
  have hnodup := Currency.nodup_of_distinct hdistinct
  refine ⟨hcents, ?_, ?_, fun b hb => ?_, fun r hr => ?_⟩
  · -- The drawn identifiers name nothing else, and differ from each other.
    rw [hbalances]
    refine nodup_map_append hsound.distinct ?_ fun b hb b' hb' => ?_
    · rw [List.map_map]
      exact hnodup.map hfresh.injective
    · obtain ⟨c, -, rfl⟩ := List.mem_map.mp hb'
      exact hfresh.balance b hb c
  · -- The account is new, so no other balance belongs to it.
    rw [hbalances]
    refine nodup_map_append hsound.pairs ?_ fun b hb b' hb' hsame => ?_
    · rw [List.map_map]
      exact hnodup.map fun c c' h => congrArg Prod.snd h
    · obtain ⟨c, -, rfl⟩ := List.mem_map.mp hb'
      obtain ⟨r, hr, howner⟩ := hsound.owner b hb
      exact hfresh.account r hr (howner.trans (congrArg Prod.fst hsame))
  · rw [haccounts]
    rw [hbalances] at hb
    rcases List.mem_append.mp hb with hb | hb
    · obtain ⟨r, hr, howner⟩ := hsound.owner b hb
      exact ⟨r, List.mem_append_left _ hr, howner⟩
    · obtain ⟨c, -, rfl⟩ := List.mem_map.mp hb
      exact ⟨_, List.mem_append_right _ List.mem_cons_self, rfl⟩
  · rw [hbalances]
    rw [haccounts] at hr
    rcases List.mem_append.mp hr with hr | hr
    · obtain ⟨b, hb, howner⟩ := hsound.holds r hr
      exact ⟨b, List.mem_append_left _ hb, howner⟩
    · obtain ⟨c, hc⟩ := List.exists_mem_of_ne_nil _ (Currency.ne_nil_of_distinct hdistinct)
      rw [List.mem_singleton.mp hr]
      exact ⟨_, List.mem_append_right _ (List.mem_map_of_mem hc), rfl⟩

end Opening

theorem Sound.after {l : Ledger} {history : List Instruction} (hsound : l.Sound)
    (hfresh : l.DrawsFresh history) : (l.after history).Sound := by
  apply after_induction hfresh hsound
  · intro l c i a _ hsound hdraw hopens
    exact hsound.opened hopens hdraw
  · intro l c i a _ hsound _ hposts
    exact hsound.posted hposts

theorem sound_after {history : List Instruction} (hfresh : ({} : Ledger).DrawsFresh history) :
    (({} : Ledger).after history).Sound :=
  sound_empty.after hfresh

/-- What holds of a sound ledger holds after every history with fresh draws if opening an account
and posting a transaction keep it where the ledger is sound. -/
theorem Sound.after_induction {P : Ledger → Prop} {l : Ledger} {history : List Instruction}
    (hsound : l.Sound) (hstart : P l) (hfresh : l.DrawsFresh history)
    (hopened : ∀ l c i a, i ∈ history → l.Sound → P l → i.draw.Fresh l →
      l.Opens c i.key i.now i.draw a → P (l.opened a i.key i.now))
    (hposted : ∀ l c i a, i ∈ history → l.Sound → P l → i.draw.Fresh l →
      l.Posts c i.key i.now i.draw a → P (l.posted a i.key i.now)) :
    (l.after history).Sound ∧ P (l.after history) := by
  apply Ledger.after_induction (P := fun l => l.Sound ∧ P l) hfresh ⟨hsound, hstart⟩
  · intro l c i a hi ⟨hsound, hheld⟩ hdraw hopens
    exact ⟨hsound.opened hopens hdraw, hopened l c i a hi hsound hheld hdraw hopens⟩
  · intro l c i a hi ⟨hsound, hheld⟩ hdraw hposts
    exact ⟨hsound.posted hposts, hposted l c i a hi hsound hheld hdraw hposts⟩

end Ledger

end KeyedLedger
