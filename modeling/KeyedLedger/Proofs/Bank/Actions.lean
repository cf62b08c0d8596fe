import KeyedLedger.Http.Api
import KeyedLedger.Proofs.Bank.Statement
import KeyedLedger.Proofs.Metrics.Counting

/-! # What may be done at a bank

Callers join, publish and give up, messages reach the ledger and the gateway once or more often or
never, the store fails and the broker is out of reach, in any order. What happens meanwhile is noted
down. Whatever a caller does, and whatever a bank does to answer a request, comes down to this.
-/

namespace KeyedLedger

/-! ## Occurrences -/

/-- What happens at a bank that may be counted. -/
inductive Occurrence where
  /-- The command of a call is offered to the broker, which answers. -/
  | offered (call : Call) (answer : Except BrokerError Unit)
  /-- A caller who waits gets a result. -/
  | ended (call : Call) (result : Except GatewayError Json)
  /-- A message reaches the ledger, which treats it in some way or passes it by. -/
  | judged (event : Event) (treatment : Option Treatment)
  /-- An event reaches the gateway of a domain while the key is waited for and not resolved, or
  while it is not. -/
  | routed (type : RequestType) (event : Event) (waited : Bool)

namespace Occurrence

/-- The broker takes the command of a request of some type. -/
def publishes (requestType : String) : Occurrence → Bool
  | offered call (.ok ()) => call.requestType = requestType
  | _ => false

/-- A call with a request of some type ends in a timeout. -/
def timesOut (requestType : String) : Occurrence → Bool
  | ended call (.error (.timeout _ _)) => call.requestType = requestType
  | _ => false

/-- The ledger processes a command under a key. -/
def isCommand : Occurrence → Bool
  | judged event _ => event.isKeyedCommand
  | _ => false

/-- The ledger treats a message in some way. -/
def treats (treatment : Treatment) : Occurrence → Bool
  | judged _ treated => treated = some treatment
  | _ => false

/-- An event without a key reaches the gateway of a domain. -/
def isKeyless (type : RequestType) : Occurrence → Bool
  | routed of event _ => of = type && event.metadata.correlationKey?.isNone
  | _ => false

/-- An outcome of a domain finds nobody who waits for it. -/
def isMissed (type : RequestType) : Occurrence → Bool
  | routed of event waited =>
    of = type && (event.metadata.correlationKey?.isSome && Gateway.isOutcome of event && !waited)
  | _ => false

end Occurrence

/-! ## Actions -/

/-- What may be done at a bank, by whomever and whenever. -/
inductive Action where
  /-- A caller joins those who wait for the key of its call, -/
  | join (call : Call)
  /-- offers the command to the broker, -/
  | publish (call : Call)
  /-- gets what its key has been resolved to or waits no longer, -/
  | hear (call : Call) (timeout : Span)
  /-- and leaves, after that or before. -/
  | leave (key : String)
  /-- A message reaches the ledger, whether or not it has been published or been there before. -/
  | judge (event : Event)
  /-- An event reaches the gateway of a domain, likewise. -/
  | route (type : RequestType) (event : Event)
  /-- From now on the store fails as it is told to. -/
  | disturb (d : Disturbances)
  /-- An account is read. -/
  | account (raw : String)
  /-- The transactions of an account are read. -/
  | transactions (raw : String)
  /-- Something else goes on at the broker: others publish, messages are taken or get lost, and it
  comes within reach or goes out of it. -/
  | traffic (broker : Broker Recipient)
  /-- The gateway that takes the calls remembers a key, or forgets one. -/
  | remember (m : Memory)
  /-- From now on a new gateway takes the calls. -/
  | openSecond
  /-- Time moves by a number of milliseconds. -/
  | pass (millis : Int)
  /-- An identifier is drawn. -/
  | draw

namespace Bank

/-- What a bank becomes by an action. -/
def perform (s : Bank) : Action → Bank
  | .join call => (s.join call).2
  | .publish call =>
    { s with
      gateway := (s.gateway.publish s.broker call s.now).2.1
      broker := (s.gateway.publish s.broker call s.now).2.2 }
  | .hear call timeout => { s with gateway := (s.gateway.outcome call timeout).2 }
  | .leave key => { s with gateway := s.gateway.leave key }
  | .judge event => (s.judge event).2
  | .route type event => (s.route type event).2
  | .disturb d => s.disturb d
  | .account raw => (s.account raw).2
  | .transactions raw => (s.transactions raw).2
  | .traffic broker => { s with broker := broker }
  | .remember m => s.withMemory m
  | .openSecond => s.openSecond
  | .pass millis => s.advance millis
  | .draw => s.fresh.2

/-- What happens by an action. -/
def occurrences (s : Bank) : Action → List Occurrence
  | .publish call => [.offered call (s.broker.publish call.topic (call.event s.now)).1]
  | .hear call timeout => [.ended call (s.gateway.outcome call timeout).1]
  | .judge event => [.judged event (s.backend.store.treatment? event s.now s.supply.draw.1)]
  | .route type event =>
    [.routed type event (event.metadata.correlationKey?.any s.gateway.waiting.isOpen)]
  | _ => []

/-- The bank after some actions. -/
def after (s : Bank) (actions : List Action) : Bank :=
  actions.foldl perform s

/-- What happens by some actions. -/
def log (s : Bank) : List Action → List Occurrence
  | [] => []
  | action :: rest => s.occurrences action ++ (s.perform action).log rest

/-! ## What comes down to actions -/

/-- One bank becomes another by some actions. -/
def Becomes (s s' : Bank) : Prop :=
  ∃ actions, s.after actions = s'

namespace Becomes

variable {s s' s'' : Bank}

theorem refl (s : Bank) : s.Becomes s :=
  ⟨[], rfl⟩

theorem trans : s.Becomes s' → s'.Becomes s'' → s.Becomes s''
  | ⟨first, hfirst⟩, ⟨second, hsecond⟩ => by
    refine ⟨first ++ second, ?_⟩
    rw [after, List.foldl_append, ← hsecond, ← hfirst]
    rfl

theorem act (s : Bank) (action : Action) : s.Becomes (s.perform action) :=
  ⟨[action], rfl⟩

theorem of_eq {α : Type} {x : α × Bank} {a : α} (h : s.Becomes x.2) (hx : x = (a, s')) :
    s.Becomes s' := by
  rwa [hx] at h

end Becomes

variable {s s' : Bank}

theorem becomes_look (s : Bank) (order : Order) (key requestId : String) :
    s.Becomes (s.look order key requestId).2 := by
  rw [look]
  split
  · exact .refl s
  · split
    · exact .refl s
    · exact .act s (.remember _)

theorem becomes_publishCall (s : Bank) (call : Call) : s.Becomes (s.publishCall call).2 := by
  have hpublished := Becomes.act s (.publish call)
  rw [perform] at hpublished
  rw [publishCall]
  rcases hpublish : s.gateway.publish s.broker call s.now with ⟨e | ⟨⟩, gateway, broker⟩ <;>
    rw [hpublish] at hpublished
  · exact hpublished.trans (.act _ (.leave call.key))
  · exact hpublished

theorem becomes_failed (s : Bank) (key : String) (e : GatewayError) :
    s.Becomes (s.failed key e).2 :=
  .act s (.remember _)

theorem becomes_finish (s : Bank) (progress : Progress) : s.Becomes (s.finish progress).2 := by
  cases progress with
  | done result => exact .refl s
  | waiting type call =>
      have hleft : s.Becomes (s.finishCall call s.timeout).2 :=
        (Becomes.act s (.hear call s.timeout)).trans (.act _ (.leave call.key))
      rw [finish]
      rcases hfinish : s.finishCall call s.timeout with ⟨e | payload, s'⟩
      · exact (hleft.of_eq hfinish).trans (s'.becomes_failed call.key e)
      · exact hleft.of_eq hfinish

/-- Whatever a caller does next comes down to actions, wherever it has come. -/
theorem becomes_turn {order : Order} {key requestId : String} {e e' : Errand}
    (h : Errand.Turn order key requestId s e s' e') : s.Becomes s' := by
  cases h with
  | answered h => exact (s.becomes_look order key requestId).of_eq h
  | admitted h => exact (s.becomes_look order key requestId).of_eq h
  | lead h => exact (Becomes.act s (.join _)).of_eq h
  | attach h => exact (Becomes.act s (.join _)).of_eq h
  | publish h => exact (s.becomes_publishCall _).of_eq h
  | refuse h hfailed =>
      exact ((s.becomes_publishCall _).of_eq h).trans ((becomes_failed _ key _).of_eq hfailed)
  | finish h => exact (s.becomes_finish _).of_eq h

theorem becomes_start (s : Bank) (order : Order) (key requestId : String) :
    s.Becomes (s.start order key requestId).2 := by
  rw [start_eq]
  rcases hlook : s.look order key requestId with ⟨result | call, s₁⟩
  · exact (s.becomes_look order key requestId).of_eq hlook
  · have hlooked := (s.becomes_look order key requestId).of_eq hlook
    rcases hjoin : s₁.join call with ⟨_ | _, s₂⟩ <;>
      have hjoined := hlooked.trans ((Becomes.act s₁ (.join call)).of_eq hjoin)
    · rcases hpublish : s₂.publishCall call with ⟨e | ⟨⟩, s₃⟩ <;>
        have hpublished := hjoined.trans ((s₂.becomes_publishCall call).of_eq hpublish)
      · simp only [hjoin, hpublish]
        exact hpublished.trans (s₃.becomes_failed key e)
      · simpa only [hjoin, hpublish] using hpublished
    · simpa only [hjoin] using hjoined

theorem becomes_deliverUpTo (s : Bank) (n : Nat) : s.Becomes (s.deliverUpTo n) := by
  induction n generalizing s with
  | zero => exact .refl s
  | succ n ih =>
      rw [deliverUpTo]
      split
      next s' hdelivered =>
        rw [deliver?] at hdelivered
        split at hdelivered
        next recipient event broker _ =>
          cases hdelivered
          refine (Becomes.act s (.traffic broker)).trans (.trans ?_ (ih _))
          cases recipient with
          | ledger => exact .act _ (.judge event)
          | outcomes type => exact .act _ (.route type event)
        next => cases hdelivered
      next => exact .refl s

theorem becomes_execute (s : Bank) (order : Order) (key requestId : String) :
    s.Becomes (s.execute order key requestId).2 := by
  have hstarted := s.becomes_start order key requestId
  rw [execute]
  rcases hstart : s.start order key requestId with ⟨progress, started⟩
  exact ((hstarted.of_eq hstart).trans (started.becomes_deliverUpTo _)).trans
    (becomes_finish _ progress)

theorem becomes_tell (s : Bank) (p : Http.Problem) : s.Becomes (s.tell p).2 := by
  rw [tell]
  dsimp only
  split
  · exact .refl s
  · exact .act s .draw

theorem becomes_present {α : Type} (s : Bank) (status : Nat) (toJson : α → Json)
    (result : Except Http.Problem α) : s.Becomes (s.present status toJson result).2 := by
  cases result with
  | ok a => exact .refl s
  | error p => exact s.becomes_tell p

theorem becomes_traceOf (s : Bank) (r : Http.Received) : s.Becomes (s.traceOf r).2 := by
  rw [traceOf]
  split
  · exact .refl s
  · exact .act s .draw

theorem becomes_answerOrder {α : Type} (s : Bank) (r : Http.Received) (shape : Shape α)
    (order : α → Order) : s.Becomes (s.answerOrder r shape order).2 := by
  have htraced := s.becomes_traceOf r
  rw [answerOrder]
  rcases htrace : s.traceOf r with ⟨trace, s'⟩
  have hdrawn := (htraced.of_eq htrace).trans (.act s' .draw)
  dsimp only
  split
  · exact hdrawn.trans (becomes_tell _ _)
  · split
    · exact hdrawn
    · exact (hdrawn.trans (becomes_execute _ _ _ _)).trans (becomes_present _ _ _ _)

theorem becomes_answerRead {α : Type} (s : Bank) (r : Http.Received) (segment : String)
    {read : Bank → String → Except ServiceError α × Bank}
    (hread : ∀ s id, Becomes s (read s id).2) (toJson : α → Json) :
    s.Becomes (s.answerRead r segment read toJson).2 := by
  have htraced := s.becomes_traceOf r
  rw [answerRead]
  rcases htrace : s.traceOf r with ⟨trace, s'⟩
  dsimp only
  split
  · exact htraced.of_eq htrace
  · exact ((htraced.of_eq htrace).trans (hread s' _)).trans (becomes_present _ _ _ _)

theorem becomes_answerFor (s : Bank) (r : Http.Received) (resource : Http.Resource) :
    s.Becomes (s.answerFor r resource).2 := by
  cases resource with
  | accounts => exact s.becomes_answerOrder r AccountRequest.shape .openAccount
  | transactions => exact s.becomes_answerOrder r TransactionRequest.shape .applyTransaction
  | account segment =>
      exact s.becomes_answerRead r segment (fun s id => .act s (.account id)) AccountView.toJson
  | accountTransactions segment =>
      exact s.becomes_answerRead r segment (fun s id => .act s (.transactions id)) _
  | health => exact .refl s
  | feed => exact .refl s

/-- So does whatever a bank does to answer a request. -/
theorem becomes_respond (s : Bank) (r : Http.Request) : s.Becomes (s.respond r).2 := by
  have htraced : s.Becomes (s.traced r).2 := by
    rw [traced]
    split
    · exact .refl s
    · exact .act s .draw
  rw [respond]
  rcases htrace : s.traced r with ⟨trace, s'⟩
  refine (htraced.of_eq htrace).trans ?_
  cases Http.Resource.ofTarget? r.target with
  | none => exact .refl s'
  | some resource =>
    dsimp only
    split
    · exact s'.becomes_answerFor ⟨r, some trace⟩ resource
    · exact .refl s'

end Bank

end KeyedLedger
