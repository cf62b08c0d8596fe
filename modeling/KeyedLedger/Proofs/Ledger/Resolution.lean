import KeyedLedger.Proofs.Entity.Currencies
import KeyedLedger.Proofs.Ledger.Books
import KeyedLedger.Proofs.Ledger.Overlooked

/-! # Settling a reported duplicate

An attempt may be told by any of its calls that its key has been used: because a transaction or a
receipt of the key is there when its own is inserted, or because the call is made to fail like that.
It is then given up with all that it has drafted, and the receipt of the key is looked up in a unit
of work of its own.

Unless that look-up is disturbed as well, the answer is told by the committed receipt alone
(`Ledger.Settled`). It makes no difference which call has reported the duplicate, or whether rightly
so.
-/

namespace KeyedLedger

variable {α : Type}

/-- The answer to a request whose key has been reported as used: the result that is recorded, which
has to be there. -/
def Ledger.resolution (l : Ledger) (key : String) (type : RequestType) (shape : Shape α) :
    Except LedgerError (Answer α) :=
  match l.recorded key type shape with
  | .ok (some answer) => .ok answer
  | .ok none => .error (.store (.corrupt
    s!"duplicate reported for '{key}' but no processed record exists"))
  | .error e => .error e

theorem Plan.orRecorded_duplicate (k key : String) (type : RequestType) (shape : Shape α)
    (l : Ledger) :
    Plan.orRecorded (.error (.store (.duplicate k))) key type shape l =
      (l.resolution key type shape).map fun answer => (answer, l) := by
  simp only [Plan.orRecorded, Ledger.resolution]
  rcases l.recorded key type shape with e | _ | answer <;> rfl

/-- The next unit of work can begin, and sees the receipt that it looks for if there is one. -/
structure Store.LooksUpFreely (s : Store) : Prop where
  begins : ∀ e, s.disturbances (.begin :: s.calls) ≠ some (.fails e)
  sees : s.disturbances (.receipt :: .begin :: s.calls) = none

theorem Store.run_eq {s : Store} {attempt : Attempt α} {r : Except LedgerError α} {s' : Session}
    (h : attempt ⟨s, s.ledger⟩ = (r, s')) : s.run attempt = (r, s'.store) := by
  rw [run, h]

namespace Attempt

theorem replayCommitted_of_free {s : Session} (hfree : s.store.LooksUpFreely) (key : String)
    (type : RequestType) (shape : Shape α) :
    replayCommitted key type shape s =
      (s.store.ledger.resolution key type shape, lookedUp s) := by
  have hfound : s.store.found key type shape = s.store.ledger.recorded key type shape := by
    rw [Store.found, hfree.sees]
  rw [replayCommitted, begin_replay_apply, hfree.sees, hfound, Ledger.resolution]
  split
  next e hfails => exact absurd hfails (hfree.begins e)
  next =>
    rcases s.store.ledger.recorded key type shape with e | _ | answer <;> rfl

/-- Where an attempt has committed nothing and reports a duplicate, the answer is the one that the
ledger holds for it. -/
theorem Resolves.settled {x : Attempt (Answer α)} {s s₁ : Session} {k key : String}
    {type : RequestType} {shape : Shape α} {planned : Except LedgerError (Answer α × Ledger)}
    (hx : Resolves x s planned) (hmeets : x s = (.error (.store (.duplicate k)), s₁))
    (hfree : s₁.store.LooksUpFreely) :
    resolvingDuplicates key type shape x s =
        (s.store.ledger.resolution key type shape, lookedUp s₁) ∧
      (lookedUp s₁).store.ledger = s.store.ledger := by
  have hledger := hx.ledger_of_error hmeets
  refine ⟨?_, hledger⟩
  simp only [resolvingDuplicates, hmeets]
  rw [replayCommitted_of_free hfree, hledger]

end Attempt

/-- The report that a command is refused. -/
def Command.refused : Command → LedgerError → Report
  | openAccount _, e => .opened (.error e)
  | applyTransaction _, e => .applied (.error e)

namespace Ledger

variable {l : Ledger} {i : Instruction}

/-- The first attempt at an instruction reports a duplicate, and leaves the store as in the
session. -/
def MeetsDuplicate (l : Ledger) (i : Instruction) (s : Session) : Prop :=
  ∃ k, match i.command with
    | .openAccount c =>
      Attempt.openAccount c i.key i.now i.draw ⟨l.under i.disturbances, l⟩ =
        (.error (.store (.duplicate k)), s)
    | .applyTransaction c =>
      Attempt.applyTransaction c i.key i.now i.draw ⟨l.under i.disturbances, l⟩ =
        (.error (.store (.duplicate k)), s)

/-- An instruction is answered from a receipt of its key and changes nothing: with the result of the
receipt if that is of its type, and else with the refusal that names the type of the receipt. -/
def AnsweredFrom (l : Ledger) (r : Receipt) (i : Instruction) : Prop :=
  ∃ v, r.value? = some v ∧ r.requestType = v.type.code ∧
    l.serve i = (if v.type = i.command.type then v.replay
      else i.command.refused (.keyTaken i.key r.requestType), l)

/-- An instruction is answered from the receipt of its key, or is refused since there is none. -/
def Settled (l : Ledger) (i : Instruction) : Prop :=
  match l.receipt? i.key with
  | some r => l.AnsweredFrom r i
  | none => l.serve i = (i.command.refused (.store (.corrupt
      s!"duplicate reported for '{i.key}' but no processed record exists")), l)

/-- The answer that a ledger holds for an instruction whose key has been reported as used. -/
def resolve (l : Ledger) (i : Instruction) : Report :=
  match i.command with
  | .openAccount _ => .opened (l.resolution i.key .openAccount Account.shape)
  | .applyTransaction _ => .applied (l.resolution i.key .applyTransaction Applied.shape)

theorem MeetsDuplicate.serve_eq {s : Session} (h : l.MeetsDuplicate i s)
    (hfree : s.store.LooksUpFreely) : l.serve i = (l.resolve i, l) := by
  obtain ⟨k, hmeets⟩ := h
  rcases i with ⟨c | c, key, now, draw, d⟩
  · obtain ⟨hanswer, hledger⟩ :=
      (Attempt.openAccount_resolves c key now draw ⟨l.under d, l⟩).settled hmeets hfree
    rw [serve_openAccount, Store.openAccount, Store.run_eq hanswer]
    exact Prod.ext rfl hledger
  · obtain ⟨hanswer, hledger⟩ :=
      (Attempt.applyTransaction_resolves c key now draw ⟨l.under d, l⟩).settled hmeets hfree
    rw [serve_applyTransaction, Store.applyTransaction, Store.run_eq hanswer]
    exact Prod.ext rfl hledger

theorem resolution_of_none {key : String} (hr : l.receipt? key = none) (type : RequestType)
    (shape : Shape α) : l.resolution key type shape = .error (.store (.corrupt
      s!"duplicate reported for '{key}' but no processed record exists")) := by
  rw [resolution, recorded, hr]

theorem resolution_of_receipt {key : String} {type : RequestType} {shape : Shape α} {r : Receipt}
    {a : α} (hr : l.receipt? key = some r) (htype : r.requestType = type.code)
    (hread : shape.decoder.ofJson r.result = .ok a) :
    l.resolution key type shape = .ok ⟨a, true⟩ := by
  rw [resolution, recorded_of_receipt hr htype hread]

theorem resolution_of_other {key : String} {type other : RequestType} {r : Receipt}
    (shape : Shape α) (hr : l.receipt? key = some r) (htype : r.requestType = other.code)
    (hother : other ≠ type) : l.resolution key type shape = .error (.keyTaken key other.code) := by
  rw [resolution, recorded_of_other shape hr htype hother]

theorem resolve_of_value {r : Receipt} {v : Result} (hr : l.receipt? i.key = some r)
    (hv : r.value? = some v) :
    l.resolve i = if v.type = i.command.type then v.replay
      else i.command.refused (.keyTaken i.key v.type.code) := by
  obtain ⟨hcode, hread⟩ := Receipt.eq_of_value? hv
  rw [resolve]
  -- Of the four pairs of a command and a value, two agree in their types.
  cases i.command with
  | openAccount c =>
      cases v with
      | opened a => exact congrArg Report.opened (resolution_of_receipt hr hcode hread)
      | applied a =>
          have hother : (Result.applied a).type ≠ .openAccount := by simp [Result.type]
          exact congrArg Report.opened (resolution_of_other Account.shape hr hcode hother)
  | applyTransaction c =>
      cases v with
      | opened a =>
          have hother : (Result.opened a).type ≠ .applyTransaction := by simp [Result.type]
          exact congrArg Report.applied (resolution_of_other Applied.shape hr hcode hother)
      | applied a => exact congrArg Report.applied (resolution_of_receipt hr hcode hread)

/-- Where every receipt can be read, an instruction that is answered as the ledger holds is settled
by the receipt of its key. -/
theorem Documented.settled (h : l.Documented) (hserve : l.serve i = (l.resolve i, l)) :
    l.Settled i := by
  rw [Settled]
  cases hr : l.receipt? i.key with
  | none =>
      rw [hserve, resolve]
      cases i.command <;> simp only [resolution_of_none hr, Command.refused]
  | some r =>
      obtain ⟨v, hv⟩ := h.legible r (List.mem_of_find?_eq_some hr)
      obtain ⟨hcode, -⟩ := Receipt.eq_of_value? hv
      refine ⟨v, hv, hcode, ?_⟩
      rw [hserve, resolve_of_value hr hv, hcode]

/-! ## A record that is overlooked -/

end Ledger

theorem Account.exists_opening {listed : List Currency} (hlisted : listed ≠ [])
    (hnodup : listed.Nodup) (customer : CustomerId) (country : CountryCode) (now : Timestamp)
    (draw : Draw) : ∃ a, opening customer country listed now draw = .ok a := by
  obtain ⟨currencies, h⟩ := Currency.exists_distinct_iff.mpr ⟨hlisted, hnodup⟩
  rw [opening, h]
  exact ⟨_, rfl⟩

namespace Ledger

variable {l : Ledger}

/-- Opening an account that the domain admits fails on the receipt of the key at the end of its unit
of work, if that is overlooked at the beginning. -/
theorem serve_overlooking_opening {c : OpenAccount} {key : String} {now : Timestamp} {draw : Draw}
    {d : Disturbances} {r : Receipt} (hlisted : c.currencies ≠ []) (hnodup : c.currencies.Nodup)
    (hd : d.OverlooksFirst) (hr : l.receipt? key = some r) :
    l.serve ⟨.openAccount c, key, now, draw, d⟩ =
      (l.resolve ⟨.openAccount c, key, now, draw, d⟩, l) := by
  obtain ⟨a, hopening⟩ := Account.exists_opening hlisted hnodup c.customer c.country now draw
  -- The rows are drafted one by one; the receipt is the first to be refused, since it is there.
  have hplan : c.plan key now draw l = .error (.store (.duplicate key)) := by
    rw [OpenAccount.plan_apply, hopening]
    exact if_neg (by rw [hr]; exact Option.some_ne_none r)
  have hends := ((l.under d).openAccount_cases c key now draw).ends hd.fails hd.again
  rw [Store.found_of_overlooks hd rfl] at hends
  change Attempt.Ends (Plan.orRecorded (c.plan key now draw l) key _ _ l) l _ _ at hends
  rw [hplan, Plan.orRecorded_duplicate] at hends
  rw [serve_openAccount, resolve]
  cases hresolution : l.resolution key .openAccount Account.shape with
  | error e =>
      rw [hresolution] at hends
      exact Prod.ext (congrArg Report.opened hends.1) hends.2
  | ok answer =>
      rw [hresolution] at hends
      exact Prod.ext (congrArg Report.opened hends.1) hends.2

/-- After every history, an instruction whose first attempt reports a duplicate is settled by the
receipt of its key. If its first look for a receipt that is there is all that goes wrong, opening an
account in currencies that are some and distinct is answered from that receipt. -/
theorem duplicates_settled {history : List Instruction}
    (hclock : ∀ i ∈ history, Timestamp.yearInRange i.now.date.year = true) :
    (∀ i s, (({} : Ledger).after history).MeetsDuplicate i s → s.store.LooksUpFreely →
        (({} : Ledger).after history).Settled i) ∧
      ∀ (c : OpenAccount) key now draw d r, c.currencies ≠ [] → c.currencies.Nodup →
        d.OverlooksFirst → (({} : Ledger).after history).receipt? key = some r →
        (({} : Ledger).after history).AnsweredFrom r ⟨.openAccount c, key, now, draw, d⟩ := by
  have hdocumented := documented_after hclock
  constructor
  · intro i s hmeets hfree
    exact hdocumented.settled (hmeets.serve_eq hfree)
  · intro c key now draw d r hlisted hnodup hd hr
    have hsettled :
        (({} : Ledger).after history).Settled ⟨.openAccount c, key, now, draw, d⟩ :=
      hdocumented.settled (serve_overlooking_opening hlisted hnodup hd hr)
    rw [Settled, hr] at hsettled
    exact hsettled

end Ledger

namespace Sample

/-- The account is opened and filled. -/
def openedAndFilled : List Instruction :=
  [opening, posting .credit 10000 "fill" 6 .none]

/-- A debit whose unit of work cannot commit since its key is said to have been used. -/
def falseAlarm : Instruction :=
  posting .debit 4000 "spend" 12 (.once .commit (.fails (.duplicate "spend")))

/-- An account is to be opened under the key of the credit, of which the receipt is overlooked. -/
def overlooking : Instruction :=
  ⟨.openAccount ⟨customer, country, [.usd, .eur]⟩, "fill", .start2025, draw 18,
    .once .receipt .overlooks⟩

/-- There is no receipt for the debit, and that of the credit is of the other type. -/
theorem duplicates_settled_filled :
    (({} : Ledger).after openedAndFilled).Settled falseAlarm ∧
      ∃ r, (({} : Ledger).after openedAndFilled).receipt? "fill" = some r ∧
        (({} : Ledger).after openedAndFilled).AnsweredFrom r overlooking ∧
        ((({} : Ledger).after openedAndFilled).serve overlooking).1 =
          .opened (.error (.keyTaken "fill" RequestType.applyTransaction.code)) := by
  have hclock : ∀ i ∈ openedAndFilled, Timestamp.yearInRange i.now.date.year = true := by
    decide
  obtain ⟨hreported, hoverlooked⟩ := Ledger.duplicates_settled hclock
  constructor
  · apply hreported falseAlarm _ ⟨"spend", rfl⟩
    exact ⟨fun e => (Option.some_ne_none _).symm, rfl⟩
  · refine ⟨_, rfl, hoverlooked _ _ _ _ _ _ (by decide) (by decide) ?_ rfl, rfl⟩
    exact Disturbances.overlooksFirst_once

end Sample

end KeyedLedger
