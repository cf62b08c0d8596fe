import KeyedLedger.Proofs.Gateway.Slots
import KeyedLedger.Proofs.Ledger.Provenance
import KeyedLedger.Proofs.Ledger.Publication

/-! # Where a message comes from

A message on the broker is the command of somebody who has issued it, or tells what an instruction
came to that the ledger has carried out. The ledger acts on the one and a gateway reads the other,
and neither can be taken for the other. What a gateway makes of the outcomes that it reads, a
resolution or a completed request, then comes from an instruction as well.
-/

namespace KeyedLedger

namespace Event

/-- The command that an event carries. -/
def command? (e : Event) : Option Command :=
  if e.eventType = OpenAccount.eventType then
    (e.decode OpenAccount.shape.decoder).toOption.map .openAccount
  else if e.eventType = ApplyTransaction.eventType then
    (e.decode ApplyTransaction.shape.decoder).toOption.map .applyTransaction
  else none

/-- The instruction that an event makes if it reaches the ledger: one, or none. -/
def instructions (e : Event) (now : Timestamp) (draw : Draw) (d : Disturbances) :
    List Instruction :=
  match e.metadata.correlationKey?, e.command? with
  | some key, some c => [⟨c, key, now, draw, d⟩]
  | _, _ => []

theorem command?_event {c : Command} (hc : c.Legible) (m : Metadata) :
    (c.event m).command? = some c := by
  cases c with
  | openAccount c =>
      have hread := Event.decode_ofJson c.whole c.reads OpenAccount.eventType m
      have htype : ((Command.openAccount c).event m).eventType = OpenAccount.eventType := rfl
      rw [command?, if_pos htype, Command.event, Command.eventType, Command.toJson, hread]
      rfl
  | applyTransaction c =>
      have hread := Event.decode_ofJson c.whole (ApplyTransaction.reads hc)
        ApplyTransaction.eventType m
      have htype : ((Command.applyTransaction c).event m).eventType = ApplyTransaction.eventType :=
        rfl
      have hother : ApplyTransaction.eventType ≠ OpenAccount.eventType := by decide
      rw [command?, htype, if_neg hother, if_pos rfl, Command.event, Command.eventType,
        Command.toJson, hread]
      rfl

/-- The event of a command makes one instruction, under its key. -/
theorem instructions_event {c : Command} (hc : c.Legible) {m : Metadata} {key : String}
    (hm : m.correlationKey? = some key) (now : Timestamp) (draw : Draw) (d : Disturbances) :
    (c.event m).instructions now draw d = [⟨c, key, now, draw, d⟩] := by
  have hkey : (c.event m).metadata.correlationKey? = some key := hm
  simp only [instructions, hkey, command?_event hc]

end Event

namespace Gateway

variable {type type' : RequestType} {e : Event} {outcome outcome' : Outcome}

theorem answerType_injective : Function.Injective RequestType.answerType := by
  intro a b h
  cases a <;> cases b <;> first | rfl | exact absurd h (by decide)

/-- Two domains read the same of an event, which is a rejection unless they are one. -/
theorem readOutcome_unique (h : readOutcome type e = .ok outcome)
    (h' : readOutcome type' e = .ok outcome') :
    outcome = outcome' ∧ (type = type' ∨ ∃ r, outcome = .rejection r) := by
  -- The type of the event tells an answer from a rejection, and the answers of the domains apart.
  rcases readOutcome_eq_ok_iff.mp h with ⟨htype, -⟩ | ⟨htype, hread⟩ <;>
    rcases readOutcome_eq_ok_iff.mp h' with ⟨htype', -⟩ | ⟨htype', hread'⟩
  · obtain rfl := answerType_injective (htype.symm.trans htype')
    cases h.symm.trans h'
    exact ⟨rfl, .inl rfl⟩
  · exact absurd (htype.symm.trans htype') type.answerType_ne_rejection
  · exact absurd (htype'.symm.trans htype) type'.answerType_ne_rejection
  · cases hread.symm.trans hread'
    exact ⟨rfl, .inr ⟨_, rfl⟩⟩

/-- An outcome is no command, -/
theorem eventType_of_readOutcome (h : readOutcome type e = .ok outcome) :
    e.eventType ≠ OpenAccount.eventType ∧ e.eventType ≠ ApplyTransaction.eventType := by
  rcases readOutcome_eq_ok_iff.mp h with ⟨htype, -⟩ | ⟨htype, -⟩ <;> rw [htype]
  · cases type <;> decide
  · decide

theorem command?_of_readOutcome (h : readOutcome type e = .ok outcome) : e.command? = none := by
  obtain ⟨hopen, happly⟩ := eventType_of_readOutcome h
  rw [Event.command?, if_neg hopen, if_neg happly]

/-- and a command is no outcome. -/
theorem readOutcome_event (type : RequestType) {c : Command} (hc : c.Legible) (m : Metadata)
    (outcome : Outcome) : readOutcome type (c.event m) ≠ .ok outcome := by
  intro h
  have hnone := command?_of_readOutcome h
  rw [Event.command?_event hc m] at hnone
  cases hnone

end Gateway

/-- The ledger does not answer outcomes, and they change nothing in it. -/
theorem Store.answer_of_readOutcome (s : Store) (t : Topics) {e : Event} {type : RequestType}
    {outcome : Gateway.Outcome} (h : Gateway.readOutcome type e = .ok outcome) (now : Timestamp)
    (draw : Draw) : ∃ error, s.answer t e now draw = (.error error, s) := by
  obtain ⟨hopen, happly⟩ := Gateway.eventType_of_readOutcome h
  rw [answer]
  cases e.metadata.correlationKey? with
  | none => exact ⟨_, rfl⟩
  | some key =>
      refine ⟨.unknownCommand e.eventType, ?_⟩
      simp only [decide, if_neg hopen, if_neg happly]

/-- What a message on the broker may be: the command of somebody who has issued it, or an outcome of
an instruction that has been carried out. -/
inductive Event.Traced (issued : String → Command → Prop) (history : List Instruction) :
    Event → Prop
  | command {c : Command} {key : String} {m : Metadata} (hissued : issued key c)
      (hlegible : c.Legible) (hm : m.correlationKey? = some key) : Traced issued history (c.event m)
  | outcome {e : Event} {i : Instruction} {result : Except LedgerError Result}
      {requestId : Option String} (hcame : ({} : Ledger).CarriedOut history i result)
      (htells : e.Tells i.command.type i.key (.ofResult requestId i.now result)) :
      Traced issued history e

/-- What a key may be resolved to: what an instruction under the key came to, unless the command
could not be published. -/
inductive Resolution.Traced (history : List Instruction) (key : String) : Resolution → Prop
  | outcome {i : Instruction} {result : Except LedgerError Result} {requestId : Option String}
      (hcame : ({} : Ledger).CarriedOut history i result) (hkey : i.key = key) :
      Traced history key (Gateway.Outcome.ofResult requestId i.now result).resolution
  | aborted (reason : String) : Traced history key (.aborted reason)

/-- What may be remembered as completed: the value that an instruction under the key came to. -/
def Completed.Traced (request : Completed) (history : List Instruction) (key : String) : Prop :=
  ∃ i v, ({} : Ledger).CarriedOut history i (.ok v) ∧ i.key = key ∧
    request = ⟨v.type.code, v.payload⟩

section

variable {issued issued' : String → Command → Prop} {history : List Instruction}

theorem Event.Traced.mono {e : Event} (h : e.Traced issued history)
    (hissued : ∀ key c, issued key c → issued' key c) (later : List Instruction) :
    e.Traced issued' (history ++ later) := by
  cases h with
  | command hc hlegible hm => exact .command (hissued _ _ hc) hlegible hm
  | outcome hcame htells => exact .outcome (hcame.append later) htells

theorem Resolution.Traced.append {key : String} {r : Resolution} (h : r.Traced history key)
    (later : List Instruction) : r.Traced (history ++ later) key := by
  cases h with
  | outcome hcame hkey => exact .outcome (hcame.append later) hkey
  | aborted reason => exact .aborted reason

theorem Completed.Traced.append {key : String} {request : Completed}
    (h : request.Traced history key) (later : List Instruction) :
    request.Traced (history ++ later) key := by
  obtain ⟨i, v, hcame, hkey, hrequest⟩ := h
  exact ⟨i, v, hcame.append later, hkey, hrequest⟩

end

namespace Resolution.Traced

variable {history : List Instruction} {key : String}

theorem completed {payload : Json} (h : Traced history key (.completed payload)) :
    ∃ i v, ({} : Ledger).CarriedOut history i (.ok v) ∧ i.key = key ∧ payload = v.payload := by
  generalize hr : Resolution.completed payload = r at h
  cases h with
  | @outcome i result requestId hcame hkey =>
      cases result with
      | error e => cases hr
      | ok v =>
          cases hr
          exact ⟨i, v, hcame, hkey, rfl⟩
  | aborted reason => cases hr

theorem rejected {rejection : Rejection} (h : Traced history key (.rejected rejection)) :
    ∃ i e, ({} : Ledger).CarriedOut history i (.error e) ∧ i.key = key ∧
      rejection.code = e.code ∧ rejection.reason = e.message := by
  generalize hr : Resolution.rejected rejection = r at h
  cases h with
  | @outcome i result requestId hcame hkey =>
      cases result with
      | error e =>
          cases hr
          exact ⟨i, e, hcame, hkey, rfl, rfl⟩
      | ok v => cases hr
  | aborted reason => cases hr

end Resolution.Traced

end KeyedLedger
