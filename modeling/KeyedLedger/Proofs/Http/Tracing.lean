import KeyedLedger.Proofs.Bank.Entrance
import KeyedLedger.Proofs.Ledger.Publication
import KeyedLedger.Proofs.Entity.Names

/-! # One trace identifier for each request

A request over HTTP goes by one identifier. If it carries one its response repeats it, in whatever
way it was spelled, and else the response has a fresh one. Every document that tells of a problem
names the same identifier, and so does the command that the request publishes, if it publishes one;
the ledger then names it when it refuses that command.
-/

namespace KeyedLedger

namespace Http

/-! ## The identifier of a request -/

/-- Whatever reads as an identifier can be read as a header, so the check for readable characters
turns none away. -/
theorem Headers.trace?_eq (h : Headers) :
    h.trace? = (h.first? "X-Correlation-ID").bind Identifier.read? := by
  rw [trace?, readable?]
  cases h.first? "X-Correlation-ID" with
  | none => rfl
  | some value =>
      rw [Option.filter_some]
      split
      next => rfl
      next hunreadable =>
        refine (Option.eq_none_iff_forall_ne_some.mpr fun id hread => hunreadable ?_).symm
        rw [List.all_eq_true]
        intro c hc
        simp [isReadable, Identifier.isVisible_of_read? hread c hc]

example : Headers.trace? [("x-correlation-id", "\x7b00000000-0000-0000-0000-0000000000AF\x7d")] =
    Identifier.read? "000000000000000000000000000000af" := by
  decide

/-! ## What a response tells -/

theorem Problem.traceId (p : Problem) (trace : Identifier) :
    (p.under trace).member? "traceId" = some (.string (toString trace)) :=
  rfl

theorem Problem.le_status_ofService (e : ServiceError) : 400 ≤ (ofService e).status := by
  cases e <;> exact of_decide_eq_true rfl

/-- A request for a resource that is turned away before it is understood. If it is a command its key
is right. -/
inductive Misread (r : Request) : Resource → Prop
  | account {segment : String} (h : Path.decode? segment = none) : Misread r (.account segment)
  | accountTransactions {segment : String} (h : Path.decode? segment = none) :
      Misread r (.accountTransactions segment)
  | body {type : RequestType} {trace fresh : Identifier} {key : RequestKey} {response : Response}
      (hkey : RequestKey.ofHeaders r.headers (some trace) fresh = .ok key)
      (h : readOrder type r = .error response) : Misread r (.ofType type)
  | feed : Misread r .feed

/-- A request that is answered without a body: no resource takes it, or it asks for the head
only. -/
def Request.Bodiless (r : Request) : Prop :=
  r.method = "HEAD" ∨
    ∀ resource, Resource.ofTarget? r.target = some resource → r.method ∉ resource.methods

/-- What a response to a request for a resource may be: it shows something, or it tells of a problem
under the trace identifier of the request, or it turns the request away in a line of text. -/
inductive Told (trace : Identifier) (r : Request) (resource : Resource) : Response → Prop
  | shown {status : Nat} (hstatus : status = 200 ∨ status = 201) (json : Json) :
      Told trace r resource (.document status json)
  | problem {p : Problem} (hstatus : 400 ≤ p.status) :
      Told trace r resource (.document p.status (p.under trace))
  | text (h : Misread r resource) (status : Nat) (line : String) :
      Told trace r resource (.text status line)

variable {r : Request} {trace : Identifier} {resource : Resource} {response : Response}

theorem told_answer {α : Type} {status : Nat} (hstatus : status = 200 ∨ status = 201)
    (toJson : α → Json) (result : Except ServiceError α) :
    Told trace r resource (answer status toJson trace result) := by
  cases result with
  | ok a => exact .shown hstatus (toJson a)
  | error e => exact .problem (Problem.le_status_ofService e)

theorem text_of_readBody {α : Type} {shape : Shape α} (h : readBody r shape = .error response) :
    ∃ status line, response = .text status line := by
  rw [readBody] at h
  split at h
  next => split at h <;> cases h <;> exact ⟨_, _, rfl⟩
  next =>
    cases h
    exact ⟨_, _, rfl⟩

theorem text_of_readOrder {type : RequestType} (h : readOrder type r = .error response) :
    ∃ status line, response = .text status line := by
  cases type <;> exact text_of_readBody (map_error h)

theorem text_upgrade (r : Request) : ∃ status line, upgrade r = .text status line := by
  simp only [upgrade]
  split
  · exact ⟨_, _, rfl⟩
  · split <;> exact ⟨_, _, rfl⟩

namespace Told

theorem document (h : Told trace r resource response) {json : Json}
    (hbody : response.body = .document json) : response.status = 200 ∨ response.status = 201 ∨
      400 ≤ response.status ∧ json.member? "traceId" = some (.string (toString trace)) := by
  cases h with
  | shown hstatus =>
      rcases hstatus with rfl | rfl
      · exact .inl rfl
      · exact .inr (.inl rfl)
  | problem hstatus =>
      cases hbody
      exact .inr (.inr ⟨hstatus, Problem.traceId _ trace⟩)
  | text => cases hbody

theorem misread (h : Told trace r resource response) {line : String}
    (hbody : response.body = .text line) : Misread r resource := by
  cases h with
  | shown => cases hbody
  | problem => cases hbody
  | text h => exact h

theorem ne_empty (h : Told trace r resource response) : response.body ≠ .empty := by
  cases h <;> rintro ⟨⟩

end Told

end Http

/-! ## What a request publishes -/

namespace Broker

variable {κ : Type} {P Q : Event → Prop} {b b' b'' : Broker κ}

/-- Nothing has been published meanwhile but events with some property. -/
def Grows (P : Event → Prop) (b b' : Broker κ) : Prop :=
  ∃ news, b'.record = b.record ++ news ∧ ∀ m ∈ news, P m.2

namespace Grows

theorem of_record_eq (h : b'.record = b.record) : Grows P b b' :=
  ⟨[], by rw [h, List.append_nil], List.forall_mem_nil _⟩

theorem refl (b : Broker κ) : Grows P b b :=
  of_record_eq rfl

theorem of_eq (h : b' = b) : Grows P b b' :=
  of_record_eq (congrArg record h)

theorem trans (h : Grows P b b') (h' : Grows P b' b'') : Grows P b b'' := by
  obtain ⟨news, hrecord, hnews⟩ := h
  obtain ⟨news', hrecord', hnews'⟩ := h'
  refine ⟨news ++ news', by rw [hrecord', hrecord, List.append_assoc], ?_⟩
  exact List.forall_mem_append.mpr ⟨hnews, hnews'⟩

theorem mono (h : Grows P b b') (hPQ : ∀ e, P e → Q e) : Grows Q b b' := by
  obtain ⟨news, hrecord, hnews⟩ := h
  exact ⟨news, hrecord, fun m hm => hPQ m.2 (hnews m hm)⟩

theorem publish (b : Broker κ) (topic : String) {e : Event} (he : P e) :
    Grows P b (b.publish topic e).2 := by
  rw [Broker.publish]
  split
  · exact ⟨[(topic, e)], rfl, List.forall_mem_singleton.mpr he⟩
  · exact .refl b

end Grows

/-- Taking what comes next is no publication. -/
theorem record_of_next? [DecidableEq κ] {name : κ} {e : Event} (h : b.next? = some (name, e, b')) :
    b'.record = b.record := by
  simp only [next?, Option.bind_eq_bind, Option.bind_eq_some_iff] at h
  obtain ⟨number, -, ⟨name', e', queues⟩, -, h⟩ := h
  cases h
  rfl

end Broker

namespace RequestType

theorem answerType_ne_commandType (type other : RequestType) :
    type.answerType ≠ other.commandType := by
  cases type <;> cases other <;> decide

theorem rejection_ne_commandType (type : RequestType) :
    Rejection.eventType ≠ type.commandType := by
  cases type <;> decide

end RequestType

namespace Event

/-- The event is no command. -/
def IsNews (e : Event) : Prop :=
  ∀ type : RequestType, e.eventType ≠ type.commandType

/-- A refusal says which request it refuses. -/
def RefusesAs (requestId : Option String) (now : Timestamp) (e : Event) : Prop :=
  e.eventType = Rejection.eventType → e.metadata.requestId = requestId ∧
    ∃ code reason, e.body = (Rejection.mk code reason requestId now).toJson.render.toUTF8

/-- The event belongs to a request: it carries the name of the request, and whenever the ledger
refuses the event, the refusal names the request. -/
structure BelongsTo (requestId : String) (e : Event) : Prop where
  named : e.metadata.requestId = some requestId
  refusal : ∀ (b : Backend) (broker : Broker Recipient) (t : Topics) (now : Timestamp)
    (draw : Draw), broker.Grows (RefusesAs (some requestId) now) (b.process broker t e now draw).2.2

/-- If the event is a command, it belongs to a request. -/
def CommandOf (requestId : String) (e : Event) : Prop :=
  ∀ type : RequestType, e.eventType = type.commandType → e.BelongsTo requestId

theorem IsNews.commandOf {e : Event} (h : e.IsNews) (requestId : String) :
    e.CommandOf requestId :=
  fun type htype => absurd htype (h type)

end Event

/-- The ledger publishes no command, and its refusals say which request they refuse. -/
theorem Backend.grows_process (b : Backend) (broker : Broker Recipient) (t : Topics) (e : Event)
    (now : Timestamp) (draw : Draw) :
    broker.Grows (fun answer => answer.IsNews ∧ answer.RefusesAs e.metadata.requestId now)
      (b.process broker t e now draw).2.2 := by
  cases hkey : e.metadata.correlationKey? with
  | none =>
      rw [process, b.store.answer_uncorrelated t now draw hkey]
      exact .refl broker
  | some key =>
      rcases e.command_or_other with ⟨type, htype⟩ | hother
      · have hvalue : ∀ v, (b.store.comesTo type e key now draw).1 = .ok v → v.type = type :=
          fun _ => Store.type_of_comesTo
        rcases hcomes : b.store.comesTo type e key now draw with ⟨result, store⟩
        rw [hcomes] at hvalue
        rcases hpublish : broker.publish (t.topicOf type result)
          (.ofResult e.metadata now result) with ⟨taken, broker'⟩
        obtain ⟨counted, hprocess⟩ := process_command hkey htype hcomes hpublish
        have hanswers := Event.answers_ofResult t e now hvalue
        rw [hprocess, ← congrArg Prod.snd hpublish]
        refine .publish broker _ ?_
        cases result with
        | ok v =>
            obtain ⟨-, -, htold, -⟩ := hanswers.completed v rfl
            refine ⟨fun other => htold ▸ type.answerType_ne_commandType other, fun hrefused => ?_⟩
            exact absurd (htold.symm.trans hrefused) type.answerType_ne_rejection
        | error error =>
            obtain ⟨-, htold, hbody⟩ := hanswers.failed error rfl
            refine ⟨fun other => htold ▸ other.rejection_ne_commandType, fun _ => ?_⟩
            exact ⟨hanswers.requestId, error.code, error.message, hbody⟩
      · rw [process, b.store.answer_unknown t now draw hkey hother]
        exact .refl broker

theorem Event.belongsTo {e : Event} {requestId : String}
    (h : e.metadata.requestId = some requestId) : e.BelongsTo requestId where
  named := h
  refusal b broker t now draw := by
    rw [← h]
    exact (b.grows_process broker t e now draw).mono fun _ => And.right

namespace Bank

open Http

/-- Whatever is delivered, no command is published. -/
theorem grows_accept (s : Bank) (recipient : Recipient) (event : Event) :
    s.broker.Grows Event.IsNews (s.accept recipient event).broker := by
  cases recipient with
  | ledger =>
      exact (s.backend.grows_process s.broker s.topics event s.now s.supply.draw.1).mono
        fun _ => And.left
  | outcomes type => exact .refl s.broker

theorem grows_deliverUpTo (s : Bank) (n : Nat) :
    s.broker.Grows Event.IsNews (s.deliverUpTo n).broker := by
  induction n generalizing s with
  | zero => exact .refl s.broker
  | succ n ih =>
      rw [deliverUpTo]
      split
      next s' hdelivered =>
        rw [deliver?] at hdelivered
        split at hdelivered
        next recipient event broker hnext =>
          cases hdelivered
          have htaken : s.broker.Grows Event.IsNews broker :=
            .of_record_eq (Broker.record_of_next? hnext)
          exact (htaken.trans (grows_accept { s with broker := broker } recipient event)).trans
            (ih _)
        next => cases hdelivered
      next => exact .refl s.broker

/-- An order publishes its command at most, under the name of the request. -/
theorem grows_start (s : Bank) (order : Order) (key requestId : String) :
    s.broker.Grows (Event.CommandOf requestId) (s.start order key requestId).2.broker := by
  rcases s.leads_or_silent order key requestId with ⟨c, hc, hunknown, hslot⟩ | ⟨-, hbroker⟩
  · have hcommand : (s.message c key requestId).2.CommandOf requestId :=
      fun _ _ => Event.belongsTo rfl
    have hpublished := Broker.Grows.publish s.broker (s.message c key requestId).1 hcommand
    cases start_leading hc hunknown hslot requestId with
    | taken call hpublish _ hbroker =>
        rw [hbroker]
        rwa [hpublish] at hpublished
    | refused hpublish _ hbroker =>
        rw [hbroker]
        rwa [hpublish] at hpublished
  · rw [hbroker]
    exact .refl s.broker

theorem grows_execute (s : Bank) (order : Order) (key requestId : String) :
    s.broker.Grows (Event.CommandOf requestId) (s.execute order key requestId).2.broker := by
  have hstarted := s.grows_start order key requestId
  rw [execute]
  rcases hstart : s.start order key requestId with ⟨progress, started⟩
  rw [hstart] at hstarted
  have hsettled : started.broker.Grows (Event.CommandOf requestId) started.settle.broker :=
    (started.grows_deliverUpTo _).mono fun _ h => h.commandOf requestId
  have hfinished : (started.settle.finish progress).2.broker = started.settle.broker := by
    cases progress with
    | done result => rfl
    | waiting type call => exact started.settle.broker_finish type call
  dsimp only
  rw [hfinished]
  exact hstarted.trans hsettled

theorem grows_attend (s : Bank) (trace : Identifier) (key : Except Problem RequestKey)
    (order : Except Response Order) :
    s.broker.Grows (Event.CommandOf (toString trace)) (s.attend trace key order).2.broker := by
  cases key with
  | error p => exact .refl s.broker
  | ok key =>
      cases order with
      | error response => exact .refl s.broker
      | ok order => exact s.grows_execute order key.value (toString trace)

theorem broker_account (s : Bank) (raw : String) : (s.account raw).2.broker = s.broker := by
  rw [account]
  split <;> rfl

theorem broker_transactions (s : Bank) (raw : String) :
    (s.transactions raw).2.broker = s.broker := by
  rw [transactions]
  split
  · rfl
  next id _ =>
    rcases hfound : s.find id with ⟨_ | _, found⟩ <;>
      exact congrArg (fun x => x.2.broker) hfound.symm

/-! ## What becomes of a request -/

variable {r : Request} {resource : Resource}

theorem told_attend (s : Bank) (trace : Identifier) {type : RequestType} {fresh : Identifier} :
    Told trace r (.ofType type) (s.attend trace
      (RequestKey.ofHeaders r.headers (some trace) fresh) (readOrder type r)).1 := by
  cases hkey : RequestKey.ofHeaders r.headers (some trace) fresh with
  | error p =>
      obtain ⟨rule, rfl⟩ := RequestKey.eq_of_error hkey
      exact .problem (Nat.le_refl 400)
  | ok key =>
      cases horder : readOrder type r with
      | error response =>
          obtain ⟨status, line, rfl⟩ := text_of_readOrder horder
          exact .text (.body hkey horder) status line
      | ok order => exact told_answer (.inr rfl) Reply.toJson _

theorem told_answerRead {α : Type} (s : Bank) (r : Request) (trace : Identifier) {segment : String}
    {resource : Resource} (hmisread : Path.decode? segment = none → Misread r resource)
    (read : Bank → String → Except ServiceError α × Bank) (toJson : α → Json) :
    Told trace r resource (s.answerRead ⟨r, some trace⟩ segment read toJson).1 := by
  simp only [answerRead, traceOf_given]
  split
  next hsegment => exact .text (hmisread hsegment) _ _
  next id _ =>
    rw [present_forRequest]
    exact told_answer (.inl rfl) toJson _

theorem told_answerFor (s : Bank) (r : Request) (trace : Identifier) (resource : Resource) :
    Told trace r resource (s.answerFor ⟨r, some trace⟩ resource).1 := by
  have hcommand : ∀ type,
      Told trace r (.ofType type) (s.answerFor ⟨r, some trace⟩ (.ofType type)).1 := by
    intro type
    rw [answerFor_ofType]
    exact told_attend _ trace
  cases resource with
  | accounts => exact hcommand .openAccount
  | transactions => exact hcommand .applyTransaction
  | account segment => exact s.told_answerRead r trace .account account AccountView.toJson
  | accountTransactions segment =>
      exact s.told_answerRead r trace .accountTransactions transactions _
  | health => exact .shown (.inl rfl) health
  | feed =>
      obtain ⟨status, line, htext⟩ := text_upgrade r
      rw [answerFor, htext]
      exact .text .feed status line

theorem grows_answerRead {α : Type} {P : Event → Prop} (s : Bank) (r : Request)
    (trace : Identifier) (segment : String) {read : Bank → String → Except ServiceError α × Bank}
    (hread : ∀ id, (read s id).2.broker = s.broker) (toJson : α → Json) :
    s.broker.Grows P (s.answerRead ⟨r, some trace⟩ segment read toJson).2.broker := by
  simp only [answerRead, traceOf_given]
  split
  next => exact .refl s.broker
  next id _ =>
    rw [present_forRequest]
    exact .of_eq (hread id)

theorem grows_answerFor (s : Bank) (r : Request) (trace : Identifier) (resource : Resource) :
    s.broker.Grows (Event.CommandOf (toString trace))
      (s.answerFor ⟨r, some trace⟩ resource).2.broker := by
  have hcommand : ∀ type, s.broker.Grows (Event.CommandOf (toString trace))
      (s.answerFor ⟨r, some trace⟩ (.ofType type)).2.broker := by
    intro type
    rw [answerFor_ofType]
    exact s.fresh.2.grows_attend trace _ _
  cases resource with
  | accounts => exact hcommand .openAccount
  | transactions => exact hcommand .applyTransaction
  | account segment => exact s.grows_answerRead r trace segment s.broker_account _
  | accountTransactions segment =>
      exact s.grows_answerRead r trace segment s.broker_transactions _
  | health => exact .refl s.broker
  | feed => exact .refl s.broker

theorem broker_traced (s : Bank) (r : Request) : (s.traced r).2.broker = s.broker := by
  rw [traced]
  split <;> rfl

theorem trace_traced_some (s : Bank) {id : Identifier} (h : r.headers.trace? = some id) :
    (s.traced r).1 = id := by
  rw [traced, h]

theorem trace_traced_none (s : Bank) (h : r.headers.trace? = none) :
    (s.traced r).1 = s.fresh.1 := by
  rw [traced, h]

/-- A request gets its trace identifier first, and whatever it comes to then is under that
identifier. -/
theorem respond_told (s : Bank) (r : Request) : ∃ response after,
    s.respond r = (⟨(s.traced r).1, response⟩, after) ∧
      s.broker.Grows (Event.CommandOf (toString (s.traced r).1)) after.broker ∧
      ((response.body = .empty ∧ r.Bodiless) ∨ ∃ resource,
        Resource.ofTarget? r.target = some resource ∧
          Told (s.traced r).1 r resource response) := by
  rw [respond]
  rcases hget : s.traced r with ⟨trace, traced⟩
  have htraced : traced.broker = s.broker := broker_of_eq hget (s.broker_traced r)
  cases htarget : Resource.ofTarget? r.target with
  | none =>
      refine ⟨_, _, rfl, .of_eq htraced, .inl ⟨rfl, .inr ?_⟩⟩
      intro resource hresource
      cases htarget.symm.trans hresource
  | some resource =>
      by_cases hmethod : r.method ∈ resource.methods
      · have htold := traced.told_answerFor r trace resource
        have hgrows := traced.grows_answerFor r trace resource
        rw [htraced] at hgrows
        rcases hanswer : traced.answerFor ⟨r, some trace⟩ resource with ⟨response, after⟩
        rw [hanswer] at htold hgrows
        simp only [if_pos hmethod, hanswer]
        refine ⟨_, _, rfl, hgrows, ?_⟩
        by_cases hhead : r.method = "HEAD"
        · rw [if_pos hhead]
          exact .inl ⟨rfl, .inl hhead⟩
        · rw [if_neg hhead]
          exact .inr ⟨resource, rfl, htold⟩
      · simp only [if_neg hmethod]
        refine ⟨_, _, rfl, .of_eq htraced, .inl ⟨rfl, .inr ?_⟩⟩
        intro other hother
        cases htarget.symm.trans hother
        exact hmethod

/-- A request goes by one trace identifier. -/
structure OneTrace (s : Bank) (r : Request) : Prop where
  /-- The response repeats the identifier that the request carries, however it is spelled, -/
  given : ∀ value id, r.headers.first? "X-Correlation-ID" = some value →
    Identifier.read? value = some id → (s.respond r).1.trace = id
  /-- and has a fresh one if there is nothing that reads as an identifier. -/
  fresh : (∀ value, r.headers.first? "X-Correlation-ID" = some value →
    Identifier.read? value = none) → (s.respond r).1.trace = s.fresh.1
  /-- What the response has is written as identifiers are. -/
  canonical : Identifier.read? (toString (s.respond r).1.trace) = some (s.respond r).1.trace
  /-- A document shows what was asked for, or it tells of a problem under that identifier. -/
  documents : ∀ json, (s.respond r).1.response.body = .document json →
    (s.respond r).1.response.status = 200 ∨ (s.respond r).1.response.status = 201 ∨
      400 ≤ (s.respond r).1.response.status ∧
        json.member? "traceId" = some (.string (toString (s.respond r).1.trace))
  /-- A line of text is for a request that is not understood, -/
  texts : ∀ line, (s.respond r).1.response.body = .text line →
    ∃ resource, Resource.ofTarget? r.target = some resource ∧ Misread r resource
  /-- and no body for one that no resource takes, or that asks for the head only. -/
  empties : (s.respond r).1.response.body = .empty → r.Bodiless
  /-- Each command that is published meanwhile carries that identifier as the name of its request,
  and so does each refusal of it by the ledger, whenever and wherever the ledger gets it. -/
  commands : s.broker.Grows (Event.CommandOf (toString (s.respond r).1.trace))
    (s.respond r).2.broker

theorem one_trace_per_request (s : Bank) (r : Request) : s.OneTrace r := by
  obtain ⟨response, after, hrespond, hgrows, htold⟩ := s.respond_told r
  constructor <;> rw [hrespond]
  case given =>
    intro value id hvalue hid
    exact s.trace_traced_some (by rw [Headers.trace?_eq, hvalue, Option.bind_some, hid])
  case fresh =>
    intro hnone
    exact s.trace_traced_none (by rw [Headers.trace?_eq, Option.bind_eq_none_iff]; exact hnone)
  case canonical => exact Identifier.read?_toString _
  case documents =>
    intro json hbody
    rcases htold with ⟨hempty, -⟩ | ⟨resource, -, htold⟩
    · cases hempty.symm.trans hbody
    · exact htold.document hbody
  case texts =>
    intro line hbody
    rcases htold with ⟨hempty, -⟩ | ⟨resource, htarget, htold⟩
    · cases hempty.symm.trans hbody
    · exact ⟨resource, htarget, htold.misread hbody⟩
  case empties =>
    intro hbody
    rcases htold with ⟨-, hbodiless⟩ | ⟨resource, -, htold⟩
    · exact hbodiless
    · exact absurd hbody htold.ne_empty
  case commands => exact hgrows

end Bank

end KeyedLedger
