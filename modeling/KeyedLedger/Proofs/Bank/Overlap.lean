import KeyedLedger.Proofs.Bank.Transparency

/-! # Calls that overlap

Callers who share a key take their steps in any order. All who join while somebody waits for the key
see one resolution: what came of the command of the first of them, the leader. A caller whose order
is of the leader's type is answered with that. So is one whose order is of the other type: it is
told an error that was not meant for it, or is given an answer that it cannot read.
-/

namespace KeyedLedger

/-! ## Steps -/

/-- How far a caller has come. One that has waited was told what came of the command of a leader. -/
inductive Stage where
  | outside
  | admitted (call : Call)
  | publishing (call : Call)
  | waiting (call : Call)
  | answered (leader : Option Command) (result : Except ServiceError Reply)

namespace Stage

/-- The caller is one of those who wait for its key. -/
def waits : Stage → Bool
  | publishing _ => true
  | waiting _ => true
  | _ => false

/-- The call that the caller is about to publish. -/
def publishing? : Stage → Option Call
  | publishing call => some call
  | _ => none

/-- The caller has been answered. -/
def isAnswered : Stage → Bool
  | answered _ _ => true
  | _ => false

end Stage

/-- A caller with an order. -/
structure Caller where
  order : Order
  requestId : String
  stage : Stage := .outside

/-- A bank with callers who share a key, and the command of the one who joined last when nobody
waited. -/
structure Overlap where
  bank : Bank
  leader : Option Command
  callers : List Caller

/-- A caller takes its next step. -/
inductive Turn (key : String) (order : Order) (requestId : String) :
    Bank × Option Command × Stage → Bank × Option Command × Stage → Prop
  | answered {s s' : Bank} {leader : Option Command} {result : Except ServiceError Reply}
      (h : s.look order key requestId = (.answered result, s')) :
      Turn key order requestId (s, leader, .outside) (s', leader, .answered none result)
  | admitted {s s' : Bank} {leader : Option Command} {call : Call}
      (h : s.look order key requestId = (.admitted call, s')) :
      Turn key order requestId (s, leader, .outside) (s', leader, .admitted call)
  | lead {s s' : Bank} {leader : Option Command} {call : Call} {c : Command}
      (hc : order.command = .ok c) (h : s.join call = (.publisher, s')) :
      Turn key order requestId (s, leader, .admitted call) (s', some c, .publishing call)
  | attach {s s' : Bank} {leader : Option Command} {call : Call}
      (h : s.join call = (.attached, s')) :
      Turn key order requestId (s, leader, .admitted call) (s', leader, .waiting call)
  | publish {s s' : Bank} {leader : Option Command} {call : Call}
      (h : s.publishCall call = (.ok (), s')) :
      Turn key order requestId (s, leader, .publishing call) (s', leader, .waiting call)
  | wake {s s' : Bank} {leader : Option Command} {call : Call} {r : Resolution}
      {result : Except ServiceError Reply} (hr : s.gateway.waiting.outcome? key = some r)
      (h : s.finish (.waiting order.requestType call) = (result, s')) :
      Turn key order requestId (s, leader, .waiting call) (s', leader, .answered leader result)

namespace Overlap

/-- One of the callers takes a step, or a message is delivered. -/
inductive Step (key : String) : Overlap → Overlap → Prop
  | caller {s s' : Bank} {leader leader' : Option Command} {before after : List Caller}
      {order : Order} {requestId : String} {stage stage' : Stage}
      (h : Turn key order requestId (s, leader, stage) (s', leader', stage')) :
      Step key ⟨s, leader, before ++ ⟨order, requestId, stage⟩ :: after⟩
        ⟨s', leader', before ++ ⟨order, requestId, stage'⟩ :: after⟩
  | deliver {s s' : Bank} {leader : Option Command} {callers : List Caller}
      (h : s.deliver? = some s') : Step key ⟨s, leader, callers⟩ ⟨s', leader, callers⟩

/-- The callers' orders, each with the name of its request, before any of them has taken a step. -/
def start (s : Bank) (requests : List (Order × String)) : Overlap :=
  ⟨s, none, requests.map fun (order, requestId) => ⟨order, requestId, .outside⟩⟩

/-- What may come of requests under one key. Time may pass between the steps. -/
inductive Reached (key : String) (s : Bank) (requests : List (Order × String)) : Overlap → Prop
  | start : Reached key s requests (start s requests)
  | step {o o' : Overlap} (h : Reached key s requests o) (hstep : o.Step key o') :
      Reached key s requests o'
  | pass {o : Overlap} (h : Reached key s requests o) (millis : Int)
      (hclock : Timestamp.yearInRange (o.bank.advance millis).now.date.year = true) :
      Reached key s requests { o with bank := o.bank.advance millis }

end Overlap

/-! ## What callers are told -/

/-- What a caller is told from memory: its order is refused, or its key has a value. -/
def Order.Recalls (order : Order) (l : Ledger) (key : String)
    (result : Except ServiceError Reply) : Prop :=
  (∃ e, order.command = .error e ∧ result = .error e) ∨
    ∃ v, l.Records key v ∧ result = v.recall key order.requestType

/-- What a caller is told of what came of a command of some type. -/
def Order.Hears (order : Order) (type : RequestType) :
    Except LedgerError Result → Except ServiceError Reply → Prop
  | .error e, result => result = .error (.ofCode e.code e.message)
  | .ok v, result =>
    if type = order.requestType then result = .ok v.reply
    else ∃ fault : Fault, result = .error (.internal s!"unreadable outcome: {fault.message}")

/-- What came of a command when it was carried out in the course of a history. -/
def Ledger.Came (l : Ledger) (history : List Instruction) (c : Command)
    (result : Except LedgerError Result) : Prop :=
  ∃ before i after, history = before ++ i :: after ∧ i.command = c ∧
    ((l.after before).serve i).1.outcome = result

/-- A caller that has been answered was told a value from memory, or what came of the command of a
leader. -/
def Caller.Told (l : Ledger) (key : String) (history : List Instruction) (c : Caller) : Prop :=
  match c.stage with
  | .answered none result => c.order.Recalls (l.after history) key result
  | .answered (some leader) result =>
    ∃ came, l.Came history leader came ∧ c.order.Hears leader.type came result
  | _ => True

theorem Ledger.Came.append {l : Ledger} {history : List Instruction} {c : Command}
    {result : Except LedgerError Result} (h : l.Came history c result) (i : Instruction) :
    l.Came (history ++ [i]) c result := by
  obtain ⟨before, j, after, rfl, hc, hresult⟩ := h
  exact ⟨before, j, after ++ [i], by simp, hc, hresult⟩

theorem Ledger.came_last (l : Ledger) (history : List Instruction) (i : Instruction) :
    l.Came (history ++ [i]) i.command ((l.after history).serve i).1.outcome :=
  ⟨history, i, [], rfl, rfl, rfl⟩

theorem Order.Recalls.serve {order : Order} {l : Ledger} {key : String}
    {result : Except ServiceError Reply} (h : order.Recalls l key result) (i : Instruction) :
    order.Recalls (l.serve i).2 key result := by
  rcases h with hrefused | ⟨v, hrecords, hresult⟩
  · exact .inl hrefused
  · exact .inr ⟨v, hrecords.serve i, hresult⟩

/-- A caller that has waited hears what came of the leader's command. -/
theorem Result.tell_hears (order : Order) {type : RequestType}
    {came : Except LedgerError Result} (h : ∀ v, came = .ok v → v.Legible ∧ v.type = type) :
    order.Hears type came (tell order.requestType came) := by
  cases came with
  | error e => rfl
  | ok v =>
      obtain ⟨hlegible, rfl⟩ := h v rfl
      by_cases htype : v.type = order.requestType
      · rw [Order.Hears, if_pos htype, tell, ← htype]
        exact hlegible.reply_payload
      · rw [Order.Hears, if_neg htype]
        exact Result.reply_payload_other htype

/-- A caller that looks up its key is answered from memory, or has a call to make. -/
theorem Bank.Standing.look_cases {t : Topics} {s : Bank} (h : s.Standing t) (order : Order)
    (key requestId : String) :
    (∃ result, s.look order key requestId = (.answered result, s) ∧
        order.Recalls s.ledger key result) ∨
      ∃ c s', order.command = .ok c ∧
        s.look order key requestId = (.admitted (c.call t key requestId), s') ∧ s'.Standing t ∧
        s.SameBooks s' ∧ s'.broker = s.broker ∧ s'.gateway.waiting = s.gateway.waiting := by
  cases hc : order.command with
  | error e => exact .inl ⟨_, look_refused hc key requestId, .inl ⟨e, hc, rfl⟩⟩
  | ok c =>
  cases hknown : s.memory.completed? s.now key with
  | some request =>
      obtain ⟨v, hrecords, hlook⟩ := h.look_recalled hc hknown requestId
      exact .inl ⟨_, hlook, .inr ⟨v, hrecords, rfl⟩⟩
  | none =>
      obtain ⟨s', hlook, hrest⟩ := h.look_admitted hc hknown requestId
      exact .inr ⟨c, s', rfl, hlook, hrest⟩

/-- A caller whose key has no value has a call to make, unless its order is refused. -/
theorem Bank.Standing.look_new {t : Topics} {s : Bank} (h : s.Standing t) {order : Order}
    {c : Command} (hc : order.command = .ok c) {key : String}
    (hnew : ∀ v, ¬ s.ledger.Records key v) (requestId : String) :
    ∃ s', s.look order key requestId = (.admitted (c.call t key requestId), s') ∧ s'.Standing t ∧
      s.SameBooks s' ∧ s'.broker = s.broker ∧ s'.gateway.waiting = s.gateway.waiting := by
  rcases h.look_cases order key requestId with
    ⟨result, -, ⟨e, he, -⟩ | ⟨v, hv, -⟩⟩ | ⟨c', s', hc', hlook⟩
  · cases hc.symm.trans he
  · exact absurd hv (hnew v)
  · cases hc.symm.trans hc'
    exact ⟨s', hlook⟩

end KeyedLedger
