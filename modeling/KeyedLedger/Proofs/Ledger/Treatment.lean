import KeyedLedger.Proofs.Ledger.Publication

/-! # How the ledger treats messages

A message that has a key and the type of a command is treated in one of four ways: it moves a
balance, it opens an account, it is answered once more with a recorded result, or it is refused.
What the ledger stores afterwards tells the first two from each other and from the others, and what
is counted with the verdict tells the moves by their direction and the refusals by their code. Any
other message is not treated at all.
-/

namespace KeyedLedger

/-- How a command is treated. -/
inductive Treatment where
  | moved (direction : Direction)
  | opened
  | replayed
  | refused (code : ErrorCode)
deriving DecidableEq

namespace Treatment

/-- What is counted of a treatment. -/
def series : Treatment → List Series
  | moved direction => [.applied direction]
  | refused code => [.rejected code]
  | _ => []

end Treatment

/-- How a command has been treated that is answered so. -/
def Report.treatment : Report → Treatment
  | opened (.ok answer) => if answer.replayed then .replayed else .opened
  | applied (.ok answer) =>
    if answer.replayed then .replayed else .moved answer.value.transaction.direction
  | opened (.error error) => .refused error.code
  | applied (.error error) => .refused error.code

namespace Event

/-- The type of request that an event is a command of. -/
def requestType? (e : Event) : Option RequestType :=
  [RequestType.openAccount, .applyTransaction].find? fun type => e.eventType = type.commandType

/-- The event is a command, and it has a key. -/
def isKeyedCommand (e : Event) : Bool :=
  e.metadata.correlationKey?.isSome && e.requestType?.isSome

end Event

namespace Store

/-- What the store answers to a command. -/
def report (s : Store) (c : Command) (key : String) (now : Timestamp) (draw : Draw) : Report :=
  match c with
  | .openAccount c => .opened (s.openAccount c key now draw).1
  | .applyTransaction c => .applied (s.applyTransaction c key now draw).1

/-- How a message is treated as a command of a type. One that cannot be read is refused. -/
def treatment (s : Store) (type : RequestType) (e : Event) (key : String) (now : Timestamp)
    (draw : Draw) : Treatment :=
  match e.readCommand type with
  | .ok c => (s.report c key now draw).treatment
  | .error error => .refused error.code

/-- How a message is treated, if it is. -/
def treatment? (s : Store) (e : Event) (now : Timestamp) (draw : Draw) : Option Treatment :=
  match e.metadata.correlationKey?, e.requestType? with
  | some key, some type => some (s.treatment type e key now draw)
  | _, _ => none

variable {s : Store} {e : Event} {type : RequestType} {key : String} {now : Timestamp}
  {draw : Draw}

theorem isSome_treatment? (s : Store) (e : Event) (now : Timestamp) (draw : Draw) :
    (s.treatment? e now draw).isSome = e.isKeyedCommand := by
  rw [treatment?, Event.isKeyedCommand]
  cases e.metadata.correlationKey? <;> cases e.requestType? <;> rfl

end Store

namespace Event

variable {e : Event} {type : RequestType}

theorem requestType?_eq_some_iff : e.requestType? = some type ↔ e.eventType = type.commandType := by
  have hother : OpenAccount.eventType ≠ ApplyTransaction.eventType := by decide
  rw [requestType?]
  cases type <;> by_cases hopen : e.eventType = OpenAccount.eventType <;>
    by_cases happly : e.eventType = ApplyTransaction.eventType <;>
    simp [RequestType.commandType, hopen, happly, hother, hother.symm]

theorem requestType?_eq_none_iff :
    e.requestType? = none ↔ ∀ type : RequestType, e.eventType ≠ type.commandType := by
  simp only [Option.eq_none_iff_forall_ne_some, ne_eq, requestType?_eq_some_iff]

end Event

/-! ## What is stored afterwards -/

namespace Ledger

/-- One ledger is another after a message that has been treated in some way. -/
inductive Treated (l : Ledger) : Option Treatment → Ledger → Prop
  | moved (a : Applied) (key : String) (now : Timestamp) :
      Treated l (some (.moved a.transaction.direction)) (l.posted a key now)
  | opened (a : Account) (key : String) (now : Timestamp) :
      Treated l (some .opened) (l.opened a key now)
  | replayed : Treated l (some .replayed) l
  | refused (code : ErrorCode) : Treated l (some (.refused code)) l
  | passed : Treated l none l

variable {l l' : Ledger} {treatment : Option Treatment}

/-- A transaction comes to be stored if one of its direction has been moved. -/
theorem Treated.countP_transactions (h : l.Treated treatment l') (direction : Direction) :
    l'.transactions.countP (fun t => t.direction = direction) =
      l.transactions.countP (fun t => t.direction = direction) +
        if treatment = some (.moved direction) then 1 else 0 := by
  cases h with
  | moved a key now =>
      rw [posted, List.countP_append, List.countP_singleton]
      simp
  | opened a key now => simp [Ledger.opened]
  | replayed => simp
  | refused code => simp
  | passed => simp

/-- A receipt for an account comes to be stored if one has been opened. -/
theorem Treated.countP_receipts (h : l.Treated treatment l') :
    l'.receipts.countP (fun r => r.requestType = RequestType.openAccount.code) =
      l.receipts.countP (fun r => r.requestType = RequestType.openAccount.code) +
        if treatment = some .opened then 1 else 0 := by
  have hother : RequestType.applyTransaction.code ≠ RequestType.openAccount.code := by decide
  cases h with
  | moved a key now =>
      rw [posted, List.countP_append, List.countP_singleton]
      simp [hother]
  | opened a key now =>
      rw [Ledger.opened, List.countP_append, List.countP_singleton]
      simp
  | replayed => simp
  | refused code => simp
  | passed => simp

end Ledger

/-! ## The verdict -/

namespace Store

variable {s : Store} {e : Event} {type : RequestType} {key : String} {now : Timestamp}
  {draw : Draw}

/-- A command leaves the ledger as its report tells. -/
theorem treated_perform (s : Store) (c : Command) (key : String) (now : Timestamp) (draw : Draw) :
    s.ledger.Treated (some (s.report c key now draw).treatment)
      (s.perform c key now draw).2.ledger := by
  cases c with
  | openAccount c =>
      change s.ledger.Treated (some (Report.opened (s.openAccount c key now draw).1).treatment)
        (s.openAccount c key now draw).2.ledger
      rcases s.openAccount_ledger c key now draw with ⟨hsame, hrecorded⟩ | ⟨a, hok, -, hafter⟩
      · rw [hsame]
        cases hanswer : (s.openAccount c key now draw).1 with
        | error error => exact .refused error.code
        | ok answer =>
            rw [Report.treatment.eq_1, Ledger.replayed_of_recorded (hrecorded answer hanswer)]
            exact .replayed
      · rw [hafter, hok]
        exact .opened a key now
  | applyTransaction c =>
      change s.ledger.Treated
        (some (Report.applied (s.applyTransaction c key now draw).1).treatment)
        (s.applyTransaction c key now draw).2.ledger
      rcases s.applyTransaction_ledger c key now draw with
        ⟨hsame, hrecorded⟩ | ⟨a, hok, -, hafter⟩
      · rw [hsame]
        cases hanswer : (s.applyTransaction c key now draw).1 with
        | error error => exact .refused error.code
        | ok answer =>
            rw [Report.treatment.eq_2, Ledger.replayed_of_recorded (hrecorded answer hanswer)]
            exact .replayed
      · rw [hafter, hok]
        exact .moved a key now

/-- A transaction that is not a recorded one moves in the direction of its command. -/
theorem direction_of_new {c : ApplyTransaction} {answer : Answer Applied}
    (h : (s.applyTransaction c key now draw).1 = .ok answer) (hnew : answer.replayed = false) :
    answer.value.transaction.direction = c.direction := by
  rcases s.applyTransaction_ledger c key now draw with ⟨-, hrecorded⟩ | ⟨a, hok, hposts, -⟩
  · rw [Ledger.replayed_of_recorded (hrecorded answer h)] at hnew
    cases hnew
  · cases h.symm.trans hok
    obtain ⟨amount, current, -, -, -, hrecord⟩ := hposts.moved
    rw [hrecord]
    rfl

/-- The verdict on a command counts how it has been treated. -/
theorem answer_counted (s : Store) (t : Topics) (now : Timestamp) (draw : Draw)
    (hkey : e.metadata.correlationKey? = some key) (htype : e.eventType = type.commandType) :
    ∃ verdict, s.answer t e now draw = (.ok verdict, (s.comesTo type e key now draw).2) ∧
      verdict.counted = (s.treatment type e key now draw).series := by
  rw [answer, hkey]
  cases type with
  | openAccount =>
      have hopen : e.eventType = OpenAccount.eventType := htype
      simp only [decide, if_pos hopen, comesTo, treatment, Event.readCommand, carryOut]
      cases e.command OpenAccount.shape with
      | error error => exact ⟨_, rfl, rfl⟩
      | ok c =>
          simp only [Except.map, perform, report]
          rcases s.openAccount c key now draw with ⟨error | ⟨a, _ | _⟩, after⟩ <;>
            exact ⟨_, rfl, rfl⟩
  | applyTransaction =>
      have happly : e.eventType = ApplyTransaction.eventType := htype
      have hopen : e.eventType ≠ OpenAccount.eventType := by
        rw [happly]
        decide
      simp only [decide, if_neg hopen, if_pos happly, comesTo, treatment, Event.readCommand,
        carryOut]
      cases e.command ApplyTransaction.shape with
      | error error => exact ⟨_, rfl, rfl⟩
      | ok c =>
          simp only [Except.map, perform, report]
          rcases hrun : s.applyTransaction c key now draw with ⟨error | ⟨a, _ | _⟩, after⟩
          · exact ⟨_, rfl, rfl⟩
          · refine ⟨_, rfl, ?_⟩
            rw [Report.treatment.eq_2, direction_of_new (congrArg Prod.fst hrun) rfl]
            rfl
          · exact ⟨_, rfl, rfl⟩

/-- A message leaves the ledger as it has been treated, and that is what its verdict counts. One
that is not treated gets no verdict. -/
theorem answer_treated (s : Store) (t : Topics) (e : Event) (now : Timestamp) (draw : Draw) :
    s.ledger.Treated (s.treatment? e now draw) (s.answer t e now draw).2.ledger ∧
      (s.answer t e now draw).1.toOption.map Verdict.counted =
        (s.treatment? e now draw).map Treatment.series := by
  cases hkey : e.metadata.correlationKey? with
  | none =>
      rw [answer_uncorrelated s t now draw hkey, treatment?, hkey]
      exact ⟨.passed, rfl⟩
  | some key =>
  cases htype : e.requestType? with
  | none =>
      rw [answer_unknown s t now draw hkey (Event.requestType?_eq_none_iff.mp htype), treatment?,
        hkey, htype]
      exact ⟨.passed, rfl⟩
  | some type =>
      obtain ⟨verdict, hanswer, hcounted⟩ :=
        s.answer_counted t now draw hkey (Event.requestType?_eq_some_iff.mp htype)
      rw [hanswer, treatment?, hkey, htype]
      refine ⟨?_, congrArg some hcounted⟩
      change s.ledger.Treated (some (s.treatment type e key now draw)) _
      rw [treatment, comesTo]
      cases e.readCommand type with
      | error error => exact .refused error.code
      | ok c => exact s.treated_perform c key now draw

end Store

end KeyedLedger
