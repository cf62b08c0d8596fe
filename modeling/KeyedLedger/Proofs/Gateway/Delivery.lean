import KeyedLedger.Proofs.Feed.Forwarding
import KeyedLedger.Proofs.Gateway.Recall
import KeyedLedger.Proofs.Ledger.Verdict

/-! # What an outcome touches

A gateway that takes an outcome changes what it keeps of the key of the outcome and of no other key,
and every subscription to the topic of the domain brings its listener one message. An event from
which no outcome or no key can be read changes nothing but a count.
-/

namespace KeyedLedger

/-! ## What listeners hear -/

theorem Feed.listener?_publish (f : Feed) (topic : String) (payload : Json) (name : ListenerName) :
    (f.publish topic payload).2.listener? name =
      (f.listener? name).map fun l => l.hear topic payload := by
  simp only [listener?, publish]
  induction f.listeners with
  | nil => rfl
  | cons head rest ih =>
      rcases head with ⟨j, l⟩
      rw [List.map_cons, Waiting.lookup_cons_ite, Waiting.lookup_cons_ite, ih]
      split <;> rfl

namespace Gateway

variable {g : Gateway} {type : RequestType} {event : Event} {now : Timestamp}

/-! ## The parts of a delivery -/

/-- What an outcome does to the memory. -/
def Outcome.act (type : RequestType) (key : String) : Outcome → Memory.Act
  | answer payload => .markCompleted key ⟨type.code, payload⟩
  | rejection _ => .clear key

/-- What the live feed shows of an outcome. -/
def Outcome.message (key : String) : Outcome → Json
  | answer payload => payload
  | rejection r => r.toFeed key

theorem resolve_feed (g : Gateway) (type : RequestType) (key : String) (r : Resolution) :
    (g.resolve type key r).feed = g.feed := by
  rw [resolve]
  rcases g.waiting.resolve key r with ⟨_ | _, waiting⟩ <;> rfl

theorem deliver_memory (g : Gateway) (type : RequestType) (key : String) (outcome : Outcome)
    (now : Timestamp) :
    (g.deliver type key outcome now).memory = g.memory.act now (outcome.act type key) := by
  cases outcome with
  | answer payload => exact resolve_memory _ type key _
  | rejection r => exact resolve_memory _ type key _

theorem deliver_feed (g : Gateway) (type : RequestType) (key : String) (outcome : Outcome)
    (now : Timestamp) : (g.deliver type key outcome now).feed =
      (g.feed.publish type.feedTopic (outcome.message key)).2 := by
  cases outcome with
  | answer payload => simp only [deliver, resolve_feed, Outcome.message]
  | rejection r => simp only [deliver, resolve_feed, Outcome.message]

theorem slot?_deliver (g : Gateway) (type : RequestType) (key : String) (outcome : Outcome)
    (now : Timestamp) (k : String) : (g.deliver type key outcome now).waiting.slot? k =
      if k = key then
        (g.waiting.slot? key).map fun slot =>
          { slot with resolution := slot.resolution.or (some outcome.resolution) }
      else g.waiting.slot? k := by
  rw [deliver_waiting, Waiting.slot?_resolve]

theorem listener?_deliver (g : Gateway) (type : RequestType) (key : String) (outcome : Outcome)
    (now : Timestamp) (name : ListenerName) :
    (g.deliver type key outcome now).feed.listener? name =
      (g.feed.listener? name).map fun l => l.hear type.feedTopic (outcome.message key) := by
  rw [deliver_feed, Feed.listener?_publish]

/-! ## What changes -/

/-- An outcome under a key has been delivered, and nothing else has changed for other keys or for
those who are not subscribed to the topic of the domain. -/
structure Delivered (g g' : Gateway) (type : RequestType) (key : String) (outcome : Outcome)
    (now : Timestamp) : Prop where
  /-- Who waits for another key sees no difference. -/
  slots : ∀ k, k ≠ key → g'.waiting.slot? k = g.waiting.slot? k
  /-- What is remembered of another key is the same. -/
  traces : ∀ k, k ≠ key → g'.memory.trace? k = g.memory.trace? k
  /-- An answer is remembered. -/
  remembered : ∀ payload, outcome = .answer payload →
    g'.memory.trace? key = some (.completed ⟨type.code, payload⟩ now)
  /-- A rejection leaves a completed request as it is. -/
  kept : ∀ r, outcome = .rejection r → ∀ request time,
    g.memory.trace? key = some (.completed request time) →
    g'.memory.trace? key = some (.completed request time)
  /-- A rejected key is no longer in flight. -/
  cleared : ∀ r, outcome = .rejection r →
    (∀ request time, g.memory.trace? key ≠ some (.completed request time)) →
    g'.memory.trace? key = none
  /-- Those who wait are told. -/
  resolved : ∀ waiters, g.waiting.slot? key = some ⟨none, waiters⟩ →
    g'.waiting.slot? key = some ⟨some outcome.resolution, waiters⟩
  /-- Those who have been told before are not told anything else. -/
  settled : ∀ first waiters, g.waiting.slot? key = some ⟨some first, waiters⟩ →
    g'.waiting.slot? key = some ⟨some first, waiters⟩
  /-- If nobody waits, nobody is taken to wait. -/
  absent : g.waiting.slot? key = none → g'.waiting.slot? key = none
  /-- Every subscription to the topic of the domain brings its listener the message once, after
  everything else. -/
  heard : ∀ name l, g.feed.listener? name = some l → l.connected = true →
    g'.feed.listener? name = some { l with
      inbox := l.inbox ++ List.replicate (l.running type.feedTopic).length
        (.event type.feedTopic (outcome.message key)) }
  /-- A client that keeps a handle of each of its tasks is told once. -/
  once : ∀ name l, g.feed.listener? name = some l → l.connected = true → l.Tended →
    l.holds type.feedTopic = true →
    g'.feed.listener? name = some (l.tell (.event type.feedTopic (outcome.message key)))
  /-- Where the connection is closed nothing is sent. -/
  undelivered : ∀ name l, g.feed.listener? name = some l → l.connected = false →
    ∃ l', g'.feed.listener? name = some l' ∧ l'.inbox = l.inbox ∧ l'.connected = false
  /-- Whoever is not subscribed to it is not told, and nobody comes to listen. -/
  unheard : ∀ name, (∀ l, g.feed.listener? name = some l → l.running type.feedTopic = []) →
    g'.feed.listener? name = g.feed.listener? name
  /-- No key comes to be remembered twice. -/
  keys : g'.memory.keys.Nodup

theorem delivered_deliver (hkeys : g.memory.keys.Nodup) (type : RequestType) (key : String)
    (outcome : Outcome) (now : Timestamp) :
    Delivered g (g.deliver type key outcome now) type key outcome now where
  slots := by
    intro k hk
    rw [slot?_deliver, if_neg hk]
  traces := by
    intro k hk
    rw [deliver_memory]
    cases outcome with
    | answer payload => exact Memory.trace?_act_of_not_concerns hkeys (Ne.symm hk) nofun
    | rejection r => exact Memory.trace?_act_of_not_concerns hkeys (Ne.symm hk) nofun
  remembered := by
    rintro payload rfl
    rw [deliver_memory]
    exact (Memory.trace?_markCompleted _ now key _ key).trans (if_pos rfl)
  kept := by
    rintro r rfl request time htrace
    rw [deliver_memory, Memory.completed_act_iff hkeys]
    exact .inr ⟨htrace, id, nofun⟩
  cleared := by
    rintro r rfl hnone
    rw [deliver_memory]
    refine (Memory.trace?_clear hkeys key key).trans ?_
    rw [if_pos rfl]
    rcases htrace : g.memory.trace? key with _ | since | ⟨request, time⟩
    · rfl
    · rfl
    · exact absurd htrace (hnone request time)
  resolved := by
    intro waiters hslot
    rw [slot?_deliver, if_pos rfl, hslot]
    rfl
  settled := by
    intro first waiters hslot
    rw [slot?_deliver, if_pos rfl, hslot]
    rfl
  absent := by
    intro hslot
    rw [slot?_deliver, if_pos rfl, hslot]
    rfl
  heard := by
    intro name l hl hconnected
    rw [listener?_deliver, hl, Option.map_some, Listener.hear, if_pos hconnected, List.map_const']
  once := by
    intro name l hl hconnected htended hholds
    rw [listener?_deliver, hl, Option.map_some, htended.hear fun _ => hconnected, if_pos hholds]
  undelivered := by
    intro name l hl hclosed
    rw [listener?_deliver, hl, Option.map_some, Listener.hear, hclosed,
      if_neg Bool.false_ne_true]
    exact ⟨_, rfl, rfl, rfl⟩
  unheard := by
    intro name hdeaf
    rw [listener?_deliver]
    cases hl : g.feed.listener? name with
    | none => rfl
    | some l => rw [Option.map_some, Listener.hear_of_running_nil (hdeaf l hl)]
  keys := by
    rw [deliver_memory]
    exact Memory.nodup_act hkeys now _

/-- An outcome under a key is delivered. -/
theorem route_of_readOutcome (g : Gateway) {key : String} {outcome : Outcome}
    (hkey : event.metadata.correlationKey? = some key)
    (hread : readOutcome type event = .ok outcome) (now : Timestamp) :
    g.route type event now = (.ok (), g.deliver type key outcome now) := by
  rw [route, hkey]
  simp only [hread]

/-- Of an event that a gateway refuses, nobody who waits or listens sees anything, and it is not
remembered. An event that it takes is an outcome under a key, and is delivered. -/
theorem route_touches (g : Gateway) (hkeys : g.memory.keys.Nodup) (type : RequestType)
    (event : Event) (now : Timestamp) :
    (∀ e, (g.route type event now).1 = .error e →
      (event.metadata.correlationKey? = none ∨ ∀ outcome, ¬ Carries type event outcome) ∧
      (g.route type event now).2.waiting = g.waiting ∧
      (g.route type event now).2.memory = g.memory ∧
      (g.route type event now).2.feed = g.feed) ∧
    ((g.route type event now).1 = .ok () → ∃ key outcome,
      event.metadata.correlationKey? = some key ∧ Carries type event outcome ∧
      Delivered g (g.route type event now).2 type key outcome now) := by
  rw [route]
  cases hkey : event.metadata.correlationKey? with
  | none =>
      refine ⟨fun e _ => ⟨.inl rfl, rfl, rfl, rfl⟩, fun htaken => ?_⟩
      cases htaken
  | some key =>
    cases hread : readOutcome type event with
    | error error =>
        refine ⟨fun e _ => ⟨.inr fun outcome hcarries => ?_, rfl, rfl, rfl⟩, fun htaken => ?_⟩
        · cases hread.symm.trans (readOutcome_eq_ok_iff.mpr hcarries)
        · cases htaken
    | ok outcome =>
        refine ⟨fun e hrefused => ?_, fun _ => ⟨key, outcome, rfl, readOutcome_eq_ok_iff.mp hread,
          delivered_deliver hkeys type key outcome now⟩⟩
        cases hrefused

end Gateway

namespace Sample

/-- A gateway with callers under two keys, one key remembered as completed, and two who listen. -/
def crowded : Gateway where
  waiting := ⟨[("open", ⟨none, 2⟩), ("move", ⟨none, 1⟩)]⟩
  memory :=
    { lifetime := 60000000000
      traces := [("open", .inFlight (second 1)), ("done", .completed (answered "old") (second 2))] }
  feed :=
    { listeners := [(.subscriber "teller", Listener.start {} "/topic/accounts"),
        (.client "auditor", Listener.take {} "/topic/transactions")] }

/-- What the ledger has to say against one of the requests. -/
def objection : Rejection :=
  ⟨.validationFailed, "Country is not supported", some "req-1", second 3⟩

/-- It reaches the gateway. -/
def objecting : Event :=
  .ofJson Rejection.eventType objection.toJson
    (.forRequest "open" "req-1" "ACCOUNT_CREATE" (second 3))

/-- An event under the same key that is no outcome. -/
def straying : Event :=
  { objecting with eventType := "Account.Deleted" }

theorem route_touches_objection :
    crowded.memory.keys.Nodup ∧
      (crowded.route .openAccount objecting (second 4)).1 = .ok () ∧
      (crowded.route .openAccount objecting (second 4)).2.waiting.slot? "open" =
        some ⟨some (.rejected objection), 2⟩ ∧
      (crowded.route .openAccount objecting (second 4)).2.waiting.slot? "move" = some ⟨none, 1⟩ ∧
      (crowded.route .openAccount objecting (second 4)).2.memory.trace? "open" = none ∧
      (crowded.route .openAccount objecting (second 4)).2.feed.listener? (.subscriber "teller") =
        some { Listener.start {} "/topic/accounts" with
          inbox := [.event "/topic/accounts" (objection.toFeed "open")] } ∧
      (crowded.route .openAccount straying (second 4)).2.waiting = crowded.waiting := by
  have hkeys : crowded.memory.keys.Nodup := by decide
  have hread : Gateway.readOutcome .openAccount objecting = .ok (.rejection objection) := by
    rw [objecting]
    exact Gateway.readOutcome_rejection .openAccount (by decide) _
  have htaken : (crowded.route .openAccount objecting (second 4)).1 = .ok () :=
    congrArg Prod.fst (crowded.route_of_readOutcome rfl hread (second 4))
  obtain ⟨key, outcome, hkey, hcarries, hdelivered⟩ :=
    (crowded.route_touches hkeys .openAccount objecting (second 4)).2 htaken
  obtain rfl : "open" = key := Option.some.inj hkey
  obtain rfl : Gateway.Outcome.rejection objection = outcome :=
    Except.ok.inj (hread.symm.trans (Gateway.readOutcome_eq_ok_iff.mpr hcarries))
  refine ⟨hkeys, htaken, hdelivered.resolved 2 rfl, hdelivered.slots "move" (by decide), ?_, ?_, ?_⟩
  · refine hdelivered.cleared objection rfl fun request time htrace => ?_
    cases htrace
  · exact hdelivered.heard (.subscriber "teller") _ rfl rfl
  · exact ((crowded.route_touches hkeys .openAccount straying (second 4)).1 _ rfl).2.1

end Sample

end KeyedLedger
