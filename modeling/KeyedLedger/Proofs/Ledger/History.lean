import KeyedLedger.Proofs.Entity.Move
import KeyedLedger.Proofs.Entity.Opening
import KeyedLedger.Proofs.Ledger.Rows
import KeyedLedger.Proofs.Ledger.Step

/-! # Histories of the ledger

A history is a list of instructions, carried out one after the other. Every instruction brings its
own disturbances, so a history may meet any failures of the store at any of its calls. The
identifiers that an instruction draws are fresh when they name nothing that is stored; this is the
case for all draws of a history in which no identifier is drawn twice (`drawsFresh_of_nodup`).

What an instruction can do is summed up by `serve_cases`, so a property of ledgers holds after every
history as soon as opening and posting keep it (`after_of_serve`, `after_induction`).
-/

namespace KeyedLedger

/-- A command of either type. -/
inductive Command where
  | openAccount (command : OpenAccount)
  | applyTransaction (command : ApplyTransaction)

/-- A command under its key, with the time, the identifiers drawn for it and what goes wrong. -/
structure Instruction where
  command : Command
  key : String
  now : Timestamp
  draw : Draw
  disturbances : Disturbances

/-- What an instruction is answered. -/
inductive Report where
  | opened (result : Except LedgerError (Answer Account))
  | applied (result : Except LedgerError (Answer Applied))

namespace Ledger

/-- The ledger in a store, with what is to go wrong. -/
def under (l : Ledger) (d : Disturbances) : Store :=
  { ledger := l, disturbances := d }

/-- Carries out an instruction. -/
def serve (l : Ledger) (i : Instruction) : Report × Ledger :=
  match i.command with
  | .openAccount c =>
    let (result, s) := (l.under i.disturbances).openAccount c i.key i.now i.draw
    (.opened result, s.ledger)
  | .applyTransaction c =>
    let (result, s) := (l.under i.disturbances).applyTransaction c i.key i.now i.draw
    (.applied result, s.ledger)

theorem serve_openAccount (l : Ledger) (c : OpenAccount) (key : String) (now : Timestamp)
    (draw : Draw) (d : Disturbances) :
    l.serve ⟨.openAccount c, key, now, draw, d⟩ =
      (.opened ((l.under d).openAccount c key now draw).1,
        ((l.under d).openAccount c key now draw).2.ledger) :=
  rfl

theorem serve_applyTransaction (l : Ledger) (c : ApplyTransaction) (key : String) (now : Timestamp)
    (draw : Draw) (d : Disturbances) :
    l.serve ⟨.applyTransaction c, key, now, draw, d⟩ =
      (.applied ((l.under d).applyTransaction c key now draw).1,
        ((l.under d).applyTransaction c key now draw).2.ledger) :=
  rfl

/-- The ledger after a history. -/
def after (l : Ledger) (history : List Instruction) : Ledger :=
  history.foldl (fun l i => (l.serve i).2) l

/-- What the instructions of a history are answered. -/
def reports (l : Ledger) : List Instruction → List Report
  | [] => []
  | i :: rest => (l.serve i).1 :: (l.serve i).2.reports rest

theorem after_append (l : Ledger) (first second : List Instruction) :
    l.after (first ++ second) = (l.after first).after second :=
  List.foldl_append

theorem after_concat (l : Ledger) (history : List Instruction) (i : Instruction) :
    l.after (history ++ [i]) = ((l.after history).serve i).2 := by
  rw [after_append]
  rfl

end Ledger

namespace Draw

/-- The identifiers of a draw. -/
def identifiers (d : Draw) : List Identifier :=
  d.account :: d.transaction :: Currency.all.map d.balance

/-- The identifiers name nothing that is stored, and no two balances. -/
structure Fresh (d : Draw) (l : Ledger) : Prop where
  account : ∀ r ∈ l.accounts, r.id ≠ d.account
  balance : ∀ b ∈ l.balances, ∀ c, b.id ≠ d.balance c
  transaction : ∀ t ∈ l.transactions, t.id ≠ d.transaction
  injective : Function.Injective d.balance

end Draw

namespace Ledger

/-- Each instruction of a history draws fresh identifiers. -/
def DrawsFresh (l : Ledger) : List Instruction → Prop
  | [] => True
  | i :: rest => i.draw.Fresh l ∧ (l.serve i).2.DrawsFresh rest

theorem drawsFresh_append {l : Ledger} {first second : List Instruction} :
    l.DrawsFresh (first ++ second) ↔ l.DrawsFresh first ∧ (l.after first).DrawsFresh second := by
  induction first generalizing l with
  | nil => simp [DrawsFresh, after]
  | cons i rest ih =>
      simp only [List.cons_append, DrawsFresh, ih, and_assoc]
      exact Iff.rfl

/-- What an instruction does to the ledger: nothing, or it opens an account, or it posts a
transaction. -/
theorem serve_cases (l : Ledger) (i : Instruction) :
    (l.serve i).2 = l ∨
      (∃ c a, i.command = .openAccount c ∧ (l.serve i).1 = .opened (.ok ⟨a, false⟩) ∧
        l.Opens c i.key i.now i.draw a ∧ (l.serve i).2 = l.opened a i.key i.now) ∨
      ∃ c a, i.command = .applyTransaction c ∧ (l.serve i).1 = .applied (.ok ⟨a, false⟩) ∧
        l.Posts c i.key i.now i.draw a ∧ (l.serve i).2 = l.posted a i.key i.now := by
  rcases i with ⟨c | c, key, now, draw, d⟩
  · rcases (l.under d).openAccount_ledger c key now draw with ⟨hsame, -⟩ | ⟨a, hok, hopens, hafter⟩
    · exact Or.inl hsame
    · exact Or.inr (Or.inl ⟨c, a, rfl, congrArg Report.opened hok, hopens, hafter⟩)
  · rcases (l.under d).applyTransaction_ledger c key now draw with
      ⟨hsame, -⟩ | ⟨a, hok, hposts, hafter⟩
    · exact Or.inl hsame
    · exact Or.inr (Or.inr ⟨c, a, rfl, congrArg Report.applied hok, hposts, hafter⟩)

/-- An instruction keeps what opening an account and posting a transaction keep. -/
theorem serve_induction {P : Ledger → Prop} {l : Ledger} {i : Instruction} (h : P l)
    (hopened : ∀ c a, l.Opens c i.key i.now i.draw a → P (l.opened a i.key i.now))
    (hposted : ∀ c a, l.Posts c i.key i.now i.draw a → P (l.posted a i.key i.now)) :
    P (l.serve i).2 := by
  rcases l.serve_cases i with hsame | ⟨c, a, -, -, hopens, hafter⟩ | ⟨c, a, -, -, hposts, hafter⟩
  · rw [hsame]
    exact h
  · rw [hafter]
    exact hopened c a hopens
  · rw [hafter]
    exact hposted c a hposts

/-- A property that every instruction keeps holds after every history that starts with it. -/
theorem after_of_serve {P : Ledger → Prop} (hserve : ∀ l i, P l → P (l.serve i).2) {l : Ledger}
    (h : P l) (history : List Instruction) : P (l.after history) := by
  induction history generalizing l with
  | nil => exact h
  | cons i rest ih => exact ih (hserve l i h)

/-- A property that opening an account and posting a transaction keep where the draw is fresh holds
after every history with fresh draws. -/
theorem after_induction {P : Ledger → Prop} {l : Ledger} {history : List Instruction}
    (hfresh : l.DrawsFresh history) (hstart : P l)
    (hopened : ∀ l c i a, i ∈ history → P l → i.draw.Fresh l →
      l.Opens c i.key i.now i.draw a → P (l.opened a i.key i.now))
    (hposted : ∀ l c i a, i ∈ history → P l → i.draw.Fresh l →
      l.Posts c i.key i.now i.draw a → P (l.posted a i.key i.now)) :
    P (l.after history) := by
  induction history generalizing l with
  | nil => exact hstart
  | cons i rest ih =>
      obtain ⟨hdraw, hrest⟩ := hfresh
      apply ih hrest
      · apply serve_induction hstart
        · intro c a hopens
          exact hopened l c i a List.mem_cons_self hstart hdraw hopens
        · intro c a hposts
          exact hposted l c i a List.mem_cons_self hstart hdraw hposts
      · intro l c j a hj
        exact hopened l c j a (List.mem_cons_of_mem _ hj)
      · intro l c j a hj
        exact hposted l c j a (List.mem_cons_of_mem _ hj)

/-! ## Fresh identifiers -/

/-- The identifiers of what is stored are among those that have been drawn. -/
structure NamedFrom (l : Ledger) (drawn : List Identifier) : Prop where
  account : ∀ r ∈ l.accounts, r.id ∈ drawn
  balance : ∀ b ∈ l.balances, b.id ∈ drawn
  transaction : ∀ t ∈ l.transactions, t.id ∈ drawn

theorem NamedFrom.mono {l : Ledger} {drawn more : List Identifier} (h : l.NamedFrom drawn)
    (hsub : drawn ⊆ more) : l.NamedFrom more :=
  ⟨fun r hr => hsub (h.account r hr), fun b hb => hsub (h.balance b hb),
    fun t ht => hsub (h.transaction t ht)⟩

theorem NamedFrom.fresh {l : Ledger} {drawn : List Identifier} {d : Draw} (h : l.NamedFrom drawn)
    (hnodup : (drawn ++ d.identifiers).Nodup) : d.Fresh l := by
  rw [List.nodup_append] at hnodup
  obtain ⟨-, hdraw, hdisjoint⟩ := hnodup
  have hbalance : ∀ c, d.balance c ∈ d.identifiers := fun c =>
    List.mem_cons_of_mem _ (List.mem_cons_of_mem _ (List.mem_map_of_mem c.mem_all))
  refine ⟨fun r hr => hdisjoint _ (h.account r hr) _ List.mem_cons_self,
    fun b hb c => hdisjoint _ (h.balance b hb) _ (hbalance c),
    fun t ht => hdisjoint _ (h.transaction t ht) _ (List.mem_cons_of_mem _ List.mem_cons_self), ?_⟩
  have hcurrencies : (Currency.all.map d.balance).Nodup :=
    (List.nodup_cons.mp (List.nodup_cons.mp hdraw).2).2
  intro c c' hsame
  exact List.inj_on_of_nodup_map hcurrencies c.mem_all c'.mem_all hsame

theorem NamedFrom.serve {l : Ledger} {drawn : List Identifier} (i : Instruction)
    (h : l.NamedFrom drawn) : (l.serve i).2.NamedFrom (drawn ++ i.draw.identifiers) := by
  have hmore := h.mono (List.subset_append_left drawn i.draw.identifiers)
  apply serve_induction (P := fun l => l.NamedFrom _) hmore
  · intro c a hopens
    obtain ⟨currencies, -, rfl⟩ := Account.eq_of_opening hopens.opening
    refine ⟨fun r hr => ?_, fun b hb => ?_, hmore.transaction⟩
    · rcases mem_upsert hr with rfl | hr
      · exact List.mem_append_right _ List.mem_cons_self
      · exact hmore.account r hr
    · rcases mem_foldl_upsert hb with hb | hb
      · obtain ⟨c, -, rfl⟩ := List.mem_map.mp hb
        exact List.mem_append_right _ (List.mem_cons_of_mem _ (List.mem_cons_of_mem _
          (List.mem_map_of_mem c.mem_all)))
      · exact hmore.balance b hb
  · intro c a hposts
    obtain ⟨amount, current, -, hcurrent, hmoved, hrecord⟩ := hposts.moved
    refine ⟨hmore.account, fun b hb => ?_, fun t ht => ?_⟩
    · rcases mem_upsert hb with rfl | hb
      · obtain ⟨available, hbalance⟩ := Balance.eq_of_move hmoved
        rw [hbalance]
        exact hmore.balance current (List.mem_of_find?_eq_some hcurrent)
      · exact hmore.balance b hb
    · rcases List.mem_append.mp ht with ht | ht
      · exact hmore.transaction t ht
      · rw [List.mem_singleton.mp ht, hrecord]
        exact List.mem_append_right _ (List.mem_cons_of_mem _ List.mem_cons_self)

/-- Draws are fresh where no identifier is drawn twice. -/
theorem drawsFresh_of_nodup {history : List Instruction}
    (hnodup : (history.flatMap fun i => i.draw.identifiers).Nodup) :
    ({} : Ledger).DrawsFresh history := by
  -- From any ledger that is named from what has been drawn, of which later draws are free.
  suffices hall : ∀ (l : Ledger) drawn, l.NamedFrom drawn →
      (drawn ++ history.flatMap fun i => i.draw.identifiers).Nodup → l.DrawsFresh history from
    hall {} [] ⟨by simp, by simp, by simp⟩ hnodup
  clear hnodup
  induction history with
  | nil => exact fun _ _ _ _ => trivial
  | cons i rest ih =>
      intro l drawn hnamed hnodup
      rw [List.flatMap_cons, ← List.append_assoc] at hnodup
      exact ⟨hnamed.fresh hnodup.of_append_left, ih _ _ (hnamed.serve i) hnodup⟩

end Ledger

/-! ## A small history -/

namespace Sample

/-- The identifier that ends in a number below 256. -/
def identifier (n : Nat) : Identifier where
  digits := Identifier.nil.digits.take 30 ++
    [⟨n / 16 % 16, Nat.mod_lt _ (by decide)⟩, ⟨n % 16, Nat.mod_lt _ (by decide)⟩]
  length_digits := rfl

/-- A draw of six identifiers that end in successive numbers. -/
def draw (n : Nat) : Draw where
  account := identifier n
  balance := fun c => identifier (n + 1 + c.rank)
  transaction := identifier (n + 5)

/-- The owner of an account. -/
def customer : CustomerId :=
  ⟨"CUST1", by decide, by decide, by decide⟩

/-- The country of an account. -/
def country : CountryCode :=
  ⟨'E', 'E', by decide, by decide⟩

/-- An account in euros is opened. -/
def opening : Instruction where
  command := .openAccount ⟨customer, country, [.eur]⟩
  key := "open"
  now := .start2025
  draw := draw 0
  disturbances := .none

/-- Cents are moved in that account. -/
def posting (direction : Direction) (cents : Nat) (key : String) (n : Nat)
    (disturbances : Disturbances) : Instruction where
  command := .applyTransaction ⟨identifier 0, Money.ofCents cents, .eur, direction, "rent"⟩
  key := key
  now := .start2025
  draw := draw n
  disturbances := disturbances

/-- The account is opened and filled; a debit fails at the end of its unit of work and is tried
again. -/
def history : List Instruction :=
  [opening, posting .credit 10000 "fill" 6 .none,
    posting .debit 4000 "spend" 12 (.once .commit (.fails (.database "down"))),
    posting .debit 4000 "spend" 18 .none]

theorem drawsFresh_history : ({} : Ledger).DrawsFresh history :=
  Ledger.drawsFresh_of_nodup (by decide)

end Sample

end KeyedLedger
