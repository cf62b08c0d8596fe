import KeyedLedger.Proofs.Bank.Origin
import KeyedLedger.Proofs.Ledger.Publication

/-! # Outcomes that are lost

A command is committed before its outcome is published, so an outcome can be lost when the broker
takes nothing. The record of the command outlives that: whatever messages arrive later, and wherever
the store and the broker fail meanwhile, the command is answered as it was to be answered when it
arrives again on a store and a broker that work, and nothing is changed by it.
-/

namespace KeyedLedger

/-- An instruction that changes the ledger commits a value, and its command is valid. -/
theorem Ledger.exists_effect {l : Ledger} {i : Instruction} (h : (l.serve i).2 ≠ l) :
    ∃ v, (l.serve i).1.effect? = some v ∧ i.command.Valid := by
  rcases l.serve_cases i with hsame | ⟨c, a, hcommand, hreport, -, -⟩ |
    ⟨c, a, hcommand, hreport, hposts, -⟩
  · exact absurd hsame h
  · rw [hreport, hcommand]
    exact ⟨_, rfl, trivial⟩
  · obtain ⟨amount, -, hvalid, -⟩ := hposts.moved
    rw [hreport, hcommand]
    exact ⟨_, rfl, ⟨amount, hvalid⟩, hposts.described⟩

/-- A message that arrives at the ledger, with the time, the identifiers drawn for it, what is to go
wrong with the store, and whether the broker can be reached. -/
structure Arrival where
  event : Event
  now : Timestamp
  draw : Draw
  disturbances : Disturbances
  reachable : Bool

/-- The instructions that a message makes when it arrives: one, or none. -/
def Arrival.instructions (a : Arrival) : List Instruction :=
  a.event.instructions a.now a.draw a.disturbances

namespace Event

variable {e : Event} {type : RequestType} {key : String} {now : Timestamp} {draw : Draw}
  {d : Disturbances}

theorem command?_of_type (htype : e.eventType = type.commandType) :
    e.command? = (e.readCommand type).toOption := by
  cases type with
  | openAccount =>
      have hopen : e.eventType = OpenAccount.eventType := htype
      rw [command?, if_pos hopen, readCommand, command]
      cases e.decode OpenAccount.shape.decoder <;> rfl
  | applyTransaction =>
      have happly : e.eventType = ApplyTransaction.eventType := htype
      have hopen : e.eventType ≠ OpenAccount.eventType := by
        rw [happly]
        decide
      rw [command?, if_neg hopen, if_pos happly, readCommand, command]
      cases e.decode ApplyTransaction.shape.decoder <;> rfl

theorem instructions_of_read {c : Command} (hkey : e.metadata.correlationKey? = some key)
    (htype : e.eventType = type.commandType) (hread : e.readCommand type = .ok c) :
    e.instructions now draw d = [⟨c, key, now, draw, d⟩] := by
  simp only [instructions, hkey, command?_of_type htype, hread]
  rfl

theorem instructions_of_unreadable {error : LedgerError} (htype : e.eventType = type.commandType)
    (hread : e.readCommand type = .error error) : e.instructions now draw d = [] := by
  simp only [instructions, command?_of_type htype, hread]
  cases e.metadata.correlationKey? <;> rfl

theorem instructions_of_other (hother : ∀ type : RequestType, e.eventType ≠ type.commandType) :
    e.instructions now draw d = [] := by
  have hopen : e.eventType ≠ OpenAccount.eventType := hother .openAccount
  have happly : e.eventType ≠ ApplyTransaction.eventType := hother .applyTransaction
  simp only [instructions, command?, if_neg hopen, if_neg happly]
  cases e.metadata.correlationKey? <;> rfl

/-- A message that makes an instruction is a command with a key that can be read. -/
theorem exists_of_instructions {i : Instruction} (h : i ∈ e.instructions now draw d) :
    ∃ key type c, e.metadata.correlationKey? = some key ∧ e.eventType = type.commandType ∧
      e.readCommand type = .ok c ∧ i = ⟨c, key, now, draw, d⟩ := by
  rcases e.command_or_other with ⟨type, htype⟩ | hother
  swap
  · rw [instructions_of_other hother] at h
    cases h
  · cases hread : e.readCommand type with
    | error error =>
        rw [instructions_of_unreadable htype hread] at h
        cases h
    | ok c =>
        cases hkey : e.metadata.correlationKey? with
        | none =>
            simp only [instructions, hkey] at h
            cases h
        | some key =>
            rw [instructions_of_read hkey htype hread] at h
            exact ⟨key, type, c, rfl, htype, hread, List.mem_singleton.mp h⟩

end Event

namespace Store

/-- A message does to the ledger what the instructions do that it makes. -/
theorem answer_ledger (s : Store) (t : Topics) (e : Event) (now : Timestamp) (draw : Draw)
    (d : Disturbances) : ((s.disturb d).answer t e now draw).2.ledger =
      s.ledger.after (e.instructions now draw d) := by
  cases hkey : e.metadata.correlationKey? with
  | none =>
      rw [answer_uncorrelated _ t now draw hkey]
      simp only [Event.instructions, hkey]
      rfl
  | some key =>
  rcases e.command_or_other with ⟨type, htype⟩ | hother
  swap
  · rw [answer_unknown _ t now draw hkey hother, Event.instructions_of_other hother]
    rfl
  obtain ⟨counted, hanswer⟩ := (s.disturb d).answer_command t now draw hkey htype
  rw [hanswer, comesTo]
  cases hread : e.readCommand type with
  | error error =>
      rw [Event.instructions_of_unreadable htype hread]
      rfl
  | ok c =>
      rw [Event.instructions_of_read hkey htype hread]
      exact (s.follows_disturb ⟨c, key, now, draw, d⟩).perform.2

variable {s : Store} {t : Topics} {e : Event} {type : RequestType} {key : String} {now : Timestamp}
  {draw : Draw} {d : Disturbances}

/-- A message that changes the ledger is a command that comes to a value, which is recorded. -/
theorem committed_of_changed (hcents : s.ledger.InCents)
    (hclock : Timestamp.yearInRange now.date.year = true)
    (hchanged : s.ledger.after (e.instructions now draw d) ≠ s.ledger) :
    ∃ key type c v, e.metadata.correlationKey? = some key ∧ e.eventType = type.commandType ∧
      e.readCommand type = .ok c ∧ c.Valid ∧
      ((s.disturb d).comesTo type e key now draw).1 = .ok v ∧
      (s.ledger.after (e.instructions now draw d)).Records key v := by
  rcases hmade : e.instructions now draw d with _ | ⟨i, rest⟩
  · rw [hmade] at hchanged
    exact absurd rfl hchanged
  have hi : i ∈ e.instructions now draw d := hmade ▸ List.mem_cons_self
  obtain ⟨key, type, c, hkey, htype, hread, rfl⟩ := Event.exists_of_instructions hi
  rw [Event.instructions_of_read hkey htype hread] at hmade hchanged
  cases hmade
  obtain ⟨v, heffect, hvalid⟩ := Ledger.exists_effect hchanged
  refine ⟨key, type, c, v, hkey, htype, hread, hvalid, ?_,
    Ledger.records_of_effect hcents hclock heffect⟩
  have hperform := (s.follows_disturb ⟨c, key, now, draw, d⟩).perform.1
  rw [comesTo, hread]
  exact hperform.trans (Report.outcome_of_effect heffect)

/-- A command that has a value of its type recorded under its key comes to that value, and changes
nothing. -/
theorem comesTo_of_records {c : Command} {v : Result} (hrecords : s.ledger.Records key v)
    (hread : e.readCommand type = .ok c) (htype : v.type = type) (hvalid : c.Valid)
    (now : Timestamp) (draw : Draw) :
    ((s.disturb .none).comesTo type e key now draw).1 = .ok v ∧
      ((s.disturb .none).comesTo type e key now draw).2.ledger = s.ledger := by
  have hsame : c.type = v.type := (Event.type_of_readCommand hread).trans htype.symm
  have hserve := Ledger.Records.replay (j := ⟨c, key, now, draw, .none⟩) hrecords hsame hvalid rfl
  obtain ⟨hresult, hledger⟩ := (s.follows_disturb ⟨c, key, now, draw, .none⟩).perform
  rw [comesTo, hread]
  refine ⟨hresult.trans ?_, hledger.trans ?_⟩
  · exact (congrArg (fun r => r.1.outcome) hserve).trans (Report.outcome_replay v)
  · exact congrArg Prod.snd hserve

end Store

theorem Broker.publish_error {κ : Type} {b b' : Broker κ} {topic : String} {e : Event}
    {fault : BrokerError} (h : b.publish topic e = (.error fault, b')) : b' = b := by
  rw [publish] at h
  split at h <;> cases h
  rfl

namespace Backend

variable {κ : Type} [DecidableEq κ]

/-- A message arrives at the ledger. -/
def receive (b : Backend) (broker : Broker κ) (t : Topics) (a : Arrival) :
    Except VerdictError Unit × Backend × Broker κ :=
  { b with store := b.store.disturb a.disturbances }.process
    { broker with reachable := a.reachable } t a.event a.now a.draw

/-- Messages arrive one after the other. -/
def receiveAll (b : Backend) (broker : Broker κ) (t : Topics) : List Arrival → Backend × Broker κ
  | [] => (b, broker)
  | a :: rest =>
    let (_, b, broker) := b.receive broker t a
    b.receiveAll broker t rest

omit [DecidableEq κ] in
theorem ledger_process (b : Backend) (broker : Broker κ) (t : Topics) (e : Event) (now : Timestamp)
    (draw : Draw) :
    (b.process broker t e now draw).2.1.store = (b.store.answer t e now draw).2 := by
  rw [process]
  rcases b.store.answer t e now draw with ⟨error | verdict, store⟩
  · rfl
  · dsimp only
    rcases broker.publish verdict.topic verdict.event with ⟨_ | _, _⟩ <;> rfl

omit [DecidableEq κ] in
theorem ledger_receive (b : Backend) (broker : Broker κ) (t : Topics) (a : Arrival) :
    (b.receive broker t a).2.1.store.ledger = b.store.ledger.after a.instructions := by
  rw [receive, ledger_process]
  exact b.store.answer_ledger t a.event a.now a.draw a.disturbances

omit [DecidableEq κ] in
theorem ledger_receiveAll (b : Backend) (broker : Broker κ) (t : Topics) (later : List Arrival) :
    (b.receiveAll broker t later).1.store.ledger =
      b.store.ledger.after (later.flatMap Arrival.instructions) := by
  induction later generalizing b broker with
  | nil => rfl
  | cons a rest ih =>
      rw [receiveAll, ih, ledger_receive, List.flatMap_cons, Ledger.after_append]

omit [DecidableEq κ] in
/-- The broker is as it was if it has not taken an outcome. -/
theorem broker_of_unpublished {b b' : Backend} {broker broker' : Broker κ} {t : Topics}
    {e : Event} {now : Timestamp} {draw : Draw} {fault : BrokerError}
    (h : b.process broker t e now draw = (.error (.publish fault), b', broker')) :
    broker' = broker := by
  rw [process] at h
  split at h
  · cases h
    rfl
  · dsimp only at h
    split at h
    · cases h
    next htold =>
      cases h
      exact Broker.publish_error htold

omit [DecidableEq κ] in
/-- A command that has a value of its type recorded under its key is answered with that value when
it arrives at a store and a broker that work, and changes nothing. -/
theorem receive_recorded (b : Backend) (broker : Broker κ) (t : Topics) {again : Arrival}
    {key : String} {c : Command} {v : Result} (hrecords : b.store.ledger.Records key v)
    (hkey : again.event.metadata.correlationKey? = some key)
    (htype : again.event.eventType = v.type.commandType)
    (hread : again.event.readCommand v.type = .ok c) (hvalid : c.Valid)
    (hcalm : again.disturbances = .none) (hup : again.reachable = true) :
    ∃ b' broker', b.receive broker t again = (.ok (), b', broker') ∧
      broker'.record = broker.record ++
        [(t.completedOf v.type, .ofResult again.event.metadata again.now (.ok v))] ∧
      b'.store.ledger = b.store.ledger := by
  obtain ⟨e, now, draw, d, reachable⟩ := again
  subst hcalm hup
  obtain ⟨hresult, hunchanged⟩ := Store.comesTo_of_records hrecords hread rfl hvalid now draw
  rcases hcomes : (b.store.disturb .none).comesTo v.type e key now draw with ⟨result, store⟩
  rw [hcomes] at hresult hunchanged
  obtain rfl : result = .ok v := hresult
  obtain ⟨htaken, -, hrecord⟩ := Broker.publish_reachable
    (b := { broker with reachable := true }) rfl (t.completedOf v.type)
    (.ofResult e.metadata now (.ok v))
  obtain ⟨counted, hprocess⟩ := process_command
    (b := { b with store := b.store.disturb .none }) hkey htype hcomes (Prod.ext htaken rfl)
  exact ⟨_, _, hprocess, hrecord, hunchanged⟩

omit [DecidableEq κ] in
/-- An outcome that was committed and not published is published when its command arrives again,
whatever has arrived meanwhile: on the topic on which it was to appear, with the body that it was to
have, for the request that it belongs to. Nothing is changed by that. -/
theorem lost_outcome_republished {t : Topics} {history : List Instruction} {first again : Arrival}
    {later : List Arrival} {fault : BrokerError} {b b₁ b₂ : Backend}
    {broker broker₁ broker₂ : Broker κ}
    (hledger : b.store.ledger = ({} : Ledger).after history)
    (hclock : Timestamp.yearInRange first.now.date.year = true)
    (hlost : b.receive broker t first = (.error (.publish fault), b₁, broker₁))
    (hcommitted : b₁.store.ledger ≠ b.store.ledger)
    (hlater : b₁.receiveAll broker₁ t later = (b₂, broker₂))
    (hevent : again.event = first.event) (hcalm : again.disturbances = .none)
    (hup : again.reachable = true) :
    ∃ type verdict answer b₃ broker₃, first.event.eventType = type.commandType ∧
      ((b.store.disturb first.disturbances).answer t first.event first.now first.draw).1 =
        .ok verdict ∧
      verdict.topic = t.completedOf type ∧ verdict.event.eventType = type.answerType ∧
      broker₁.record = broker.record ∧
      b₂.receive broker₂ t again = (.ok (), b₃, broker₃) ∧
      broker₃.record = broker₂.record ++ [(verdict.topic, answer)] ∧
      answer.eventType = verdict.event.eventType ∧ answer.body = verdict.event.body ∧
      answer.metadata.key = first.event.metadata.key ∧
      answer.metadata.requestId = first.event.metadata.requestId ∧
      answer.metadata.requestType = first.event.metadata.requestType ∧
      b₃.store.ledger = b₂.store.ledger := by
  have hcents : b.store.ledger.InCents := hledger ▸ Ledger.inCents_after history
  have hafter := b.ledger_receive broker t first
  have hkept := b₁.ledger_receiveAll broker₁ t later
  rw [hlost] at hafter
  rw [hlater] at hkept
  dsimp only at hafter hkept
  rw [hafter] at hcommitted hkept
  obtain ⟨key, type, c, v, hkey, htype, hread, hvalid, hcomes, hrecords⟩ :=
    Store.committed_of_changed hcents hclock hcommitted
  obtain rfl := Store.type_of_comesTo hcomes
  -- The outcome that was lost tells of the value.
  obtain ⟨counted, hverdict⟩ :=
    (b.store.disturb first.disturbances).answer_command t first.now first.draw hkey htype
  rw [hcomes] at hverdict
  have hunpublished : broker₁.record = broker.record := by
    rw [broker_of_unpublished hlost]
  -- Its record is still there, so the command comes to the value again.
  have hlasting : b₂.store.ledger.Records key v := by
    rw [hkept]
    exact hrecords.after _
  obtain ⟨b₃, broker₃, hreceived, hrecord, hunchanged⟩ :=
    b₂.receive_recorded broker₂ t hlasting (hevent ▸ hkey) (hevent ▸ htype) (hevent ▸ hread) hvalid
      hcalm hup
  rw [hevent] at hrecord
  exact ⟨v.type, _, _, b₃, broker₃, htype, congrArg Prod.fst hverdict, rfl, rfl, hunpublished,
    hreceived, hrecord, rfl, rfl, rfl, rfl, rfl, hunchanged⟩

end Backend

namespace Sample

/-- The command to open an account in euros, as it arrives at the ledger. -/
def arriving (n : Nat) (disturbances : Disturbances) (reachable : Bool) : Arrival where
  event := opening.command.event (.forRequest "open" "req-1" "ACCOUNT_CREATE" .start2025)
  now := .start2025
  draw := draw n
  disturbances := disturbances
  reachable := reachable

theorem perform_opening : (∃ a, ((({} : Store).disturb .none).perform opening.command "open"
      .start2025 (draw 0)).1 = .ok (.opened a)) ∧
    ((({} : Store).disturb .none).perform opening.command "open" .start2025 (draw 0)).2.ledger ≠
      {} :=
  ⟨⟨_, rfl⟩, fun h => absurd (congrArg (fun l => l.accounts.length) h) (by decide)⟩

/-- The account is opened while the broker takes nothing. -/
theorem receive_arriving : ∃ b broker,
    ({} : Backend).receive ({} : Broker Unit) {} (arriving 0 .none false) =
        (.error (.publish (.publishFailed "accounts.events.completed" "broker unavailable")),
          b, broker) ∧
      b.store.ledger ≠ {} := by
  have hread : (arriving 0 .none false).event.readCommand .openAccount = .ok opening.command :=
    Event.readCommand_event (c := opening.command) trivial _
  have hcomes : (({} : Store).disturb .none).comesTo .openAccount (arriving 0 .none false).event
      "open" .start2025 (draw 0) =
        (({} : Store).disturb .none).perform opening.command "open" .start2025 (draw 0) := by
    rw [Store.comesTo, hread]
  obtain ⟨⟨a, hresult⟩, hchanged⟩ := perform_opening
  rcases hperform : (({} : Store).disturb .none).perform opening.command "open" .start2025
    (draw 0) with ⟨result, store⟩
  rw [hperform] at hresult hchanged hcomes
  obtain rfl : result = .ok (.opened a) := hresult
  have htold : ({ reachable := false } : Broker Unit).publish "accounts.events.completed"
      (.ofResult (arriving 0 .none false).event.metadata .start2025 (.ok (.opened a))) =
        (.error (.publishFailed "accounts.events.completed" "broker unavailable"),
          { reachable := false }) :=
    rfl
  obtain ⟨counted, hprocess⟩ := Backend.process_command
    (b := { store := ({} : Store).disturb .none }) (t := {}) rfl rfl hcomes htold
  exact ⟨_, _, hprocess, hchanged⟩

/-- A second attempt meets a store that fails, and a command that cannot be read comes between. -/
theorem lost_opening_republished : ∃ b₁ b₂ : Backend, ∃ broker₁ broker₂ : Broker Unit,
    ({} : Backend).receive ({} : Broker Unit) {} (arriving 0 .none false) =
        (.error (.publish (.publishFailed "accounts.events.completed" "broker unavailable")),
          b₁, broker₁) ∧
      b₁.receiveAll broker₁ {} [arriving 6 (.once .begin (.fails (.database "down"))) true,
        ⟨garbled, .start2025, draw 12, .none, true⟩] = (b₂, broker₂) ∧
      ∃ verdict answer b₃ broker₃,
        ((({} : Store).disturb .none).answer {} (arriving 0 .none false).event .start2025
          (draw 0)).1 = .ok verdict ∧
        b₂.receive broker₂ {} (arriving 18 .none true) = (.ok (), b₃, broker₃) ∧
        broker₃.record = broker₂.record ++ [(verdict.topic, answer)] ∧
        answer.body = verdict.event.body ∧ b₃.store.ledger = b₂.store.ledger := by
  obtain ⟨b₁, broker₁, hlost, hchanged⟩ := receive_arriving
  rcases hlater : b₁.receiveAll broker₁ {} [arriving 6 (.once .begin (.fails (.database "down")))
    true, ⟨garbled, .start2025, draw 12, .none, true⟩] with ⟨b₂, broker₂⟩
  have hledger : ({} : Backend).store.ledger = ({} : Ledger).after [] := rfl
  have hevent : (arriving 18 .none true).event = (arriving 0 .none false).event := rfl
  obtain ⟨type, verdict, answer, b₃, broker₃, -, hverdict, -, -, -, hagain, hrecord, -, hbody, -, -,
    -, hsame⟩ := Backend.lost_outcome_republished hledger rfl hlost hchanged hlater hevent rfl rfl
  exact ⟨b₁, b₂, broker₁, broker₂, hlost, hlater, verdict, answer, b₃, broker₃, hverdict, hagain,
    hrecord, hbody, hsame⟩

end Sample

end KeyedLedger
