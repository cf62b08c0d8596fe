import KeyedLedger.Proofs.Gateway.Slots
import KeyedLedger.Proofs.Ledger.Treatment

/-! # What each step counts

The ledger and the gateway count each in metrics of their own, and no series is counted by both.
A step adds to each series what it counts and leaves the others alone. Only the gauge of the waiting
keys is set and not counted, so nothing is said of it here.
-/

namespace KeyedLedger

/-- The series is one of the ledger, and not of the gateway. -/
def Series.ofLedger : Series → Bool
  | applied _ => true
  | rejected _ => true
  | _ => false

namespace Metrics

variable {m m' m'' : Metrics} {s t : Series} {n : Nat}

/-! ## Values -/

theorem mem_replace {values : List (Series × Nat)} {entry : Series × Nat}
    (h : entry ∈ replace s n values) : entry = (s, n) ∨ entry ∈ values := by
  induction values with
  | nil => exact .inl (List.mem_singleton.mp h)
  | cons head rest ih =>
      rcases head with ⟨t, k⟩
      rw [replace] at h
      split at h
      next =>
        rcases List.mem_cons.mp h with hnew | hrest
        · exact .inl hnew
        · exact .inr (List.mem_cons_of_mem _ hrest)
      next =>
        rcases List.mem_cons.mp h with rfl | hrest
        · exact .inr List.mem_cons_self
        · exact (ih hrest).imp_right (List.mem_cons_of_mem _)

theorem value_set_of_ne (m : Metrics) (n : Nat) (h : t ≠ s) : (m.set s n).value t = m.value t := by
  simp only [set, value]
  induction m.values with
  | nil => rw [replace, Waiting.lookup_cons_ite, if_neg h]
  | cons head rest ih =>
      rcases head with ⟨u, k⟩
      rw [replace]
      split
      next hu => rw [Waiting.lookup_cons_ite, Waiting.lookup_cons_ite, hu, if_neg h, if_neg h]
      next =>
        rw [Waiting.lookup_cons_ite, Waiting.lookup_cons_ite]
        split
        · rfl
        · exact ih

theorem value_count (m : Metrics) (s t : Series) :
    (m.count s).value t = m.value t + [s].count t := by
  rw [count]
  by_cases h : t = s
  · rw [h, value_set, List.count_singleton_self]
  · rw [value_set_of_ne m _ h, List.count_eq_zero_of_not_mem (by simpa using h)]
    rfl

/-! ## Gains -/

/-- Whatever has a value is a series of the ledger, or whatever has one is not. -/
def Of (m : Metrics) (ofLedger : Bool) : Prop :=
  ∀ entry ∈ m.values, entry.1.ofLedger = ofLedger

theorem Of.set {ofLedger : Bool} (h : m.Of ofLedger) (hs : s.ofLedger = ofLedger) (n : Nat) :
    (m.set s n).Of ofLedger := by
  intro entry hentry
  rcases mem_replace hentry with rfl | hold
  · exact hs
  · exact h entry hold

theorem Of.lookup_eq_none {ofLedger : Bool} (h : m.Of ofLedger) (hs : s.ofLedger ≠ ofLedger) :
    m.values.lookup s = none := by
  refine List.lookup_eq_none_iff.mpr fun entry hentry => ?_
  rw [bne_iff_ne]
  rintro rfl
  exact hs (h entry hentry)

/-- Metrics of the ledger, or of the gateway, have counted some series more. -/
structure Gains (ofLedger : Bool) (m m' : Metrics) (counted : List Series) : Prop where
  value : ∀ s, s ≠ .pending → m'.value s = m.value s + counted.count s
  keeps : m.Of ofLedger → m'.Of ofLedger

namespace Gains

variable {ofLedger : Bool} {first second : List Series}

theorem refl (m : Metrics) : Gains ofLedger m m [] :=
  ⟨fun _ _ => rfl, id⟩

theorem trans (h : Gains ofLedger m m' first) (h' : Gains ofLedger m' m'' second) :
    Gains ofLedger m m'' (first ++ second) where
  value s hs := by rw [h'.value s hs, h.value s hs, List.count_append, Nat.add_assoc]
  keeps hm := h'.keeps (h.keeps hm)

theorem count (m : Metrics) (hs : s.ofLedger = ofLedger) : Gains ofLedger m (m.count s) [s] :=
  ⟨fun t _ => m.value_count s t, fun hm => hm.set hs _⟩

theorem countAll (m : Metrics) {series : List Series} (h : ∀ s ∈ series, s.ofLedger = ofLedger) :
    Gains ofLedger m (m.countAll series) series := by
  induction series generalizing m with
  | nil => exact .refl m
  | cons s rest ih =>
      rw [List.forall_mem_cons] at h
      exact (count m h.1).trans (ih (m.count s) h.2)

theorem set_pending (m : Metrics) (n : Nat) : Gains false m (m.set .pending n) [] :=
  ⟨fun _ hs => m.value_set_of_ne n hs, fun hm => hm.set rfl n⟩

end Gains

end Metrics

/-! ## The gateway -/

namespace Waiting

/-- Somebody waits for the key, and it has not been resolved. -/
def isOpen (w : Waiting) (key : String) : Bool :=
  (w.slot? key).any fun slot => slot.resolution.isNone

/-- A resolution is taken by a key that is open. -/
theorem resolve_fst (w : Waiting) (key : String) (r : Resolution) :
    (w.resolve key r).1 = w.isOpen key := by
  rw [resolve, isOpen]
  rcases w.slot? key with _ | ⟨_ | first, n⟩ <;> rfl

end Waiting

/-- The event that a call publishes. -/
def Call.event (call : Call) (now : Timestamp) : Event :=
  .ofJson call.eventType call.body
    (.forRequest call.key call.requestId call.requestType now)

namespace Gateway

open Metrics

variable {κ : Type} {type : RequestType} {event : Event}

theorem join_gains (g : Gateway) (key : String) :
    Gains false g.metrics (g.join key).2.metrics [] := by
  rw [join]
  exact .set_pending g.metrics _

theorem leave_gains (g : Gateway) (key : String) :
    Gains false g.metrics (g.leave key).metrics [] :=
  .set_pending g.metrics _

/-- A command is counted if the broker takes it. -/
theorem publish_gains (g : Gateway) (broker : Broker κ) (call : Call) (now : Timestamp) :
    Gains false g.metrics (g.publish broker call now).2.1.metrics
      (match (broker.publish call.topic (call.event now)).1 with
        | .ok () => [.published call.requestType]
        | .error _ => []) := by
  rw [publish, Call.event]
  dsimp only
  rcases broker.publish call.topic _ with ⟨e | ⟨⟩, after⟩
  · exact .refl g.metrics
  · exact .count g.metrics rfl

/-- A caller is counted if its time is up. -/
theorem outcome_gains (g : Gateway) (call : Call) (timeout : Span) :
    Gains false g.metrics (g.outcome call timeout).2.metrics
      (match (g.outcome call timeout).1 with
        | .error (.timeout _ _) => [.timedOut call.requestType]
        | _ => []) := by
  rw [outcome]
  rcases g.waiting.outcome? call.key with _ | _ | _ | _
  · exact .count g.metrics rfl
  · exact .refl g.metrics
  · exact .refl g.metrics
  · exact .refl g.metrics

theorem resolve_gains (g : Gateway) (type : RequestType) (key : String) (r : Resolution) :
    Gains false g.metrics (g.resolve type key r).metrics
      (if g.waiting.isOpen key then [] else [.uncorrelated type.domain]) := by
  rw [resolve, ← g.waiting.resolve_fst key r]
  rcases g.waiting.resolve key r with ⟨_ | _, waiting⟩
  · exact .count g.metrics rfl
  · exact .refl g.metrics

theorem deliver_gains (g : Gateway) (type : RequestType) (key : String) (outcome : Outcome)
    (now : Timestamp) :
    Gains false g.metrics (g.deliver type key outcome now).metrics
      (if g.waiting.isOpen key then [] else [.uncorrelated type.domain]) := by
  cases outcome with
  | answer payload =>
      exact resolve_gains { g with memory := g.memory.markCompleted now key ⟨type.code, payload⟩ }
        type key (.completed payload)
  | rejection r =>
      exact resolve_gains { g with memory := g.memory.clear key } type key (.rejected r)

/-- The event is an outcome of the domain, under its key. -/
def isOutcome (type : RequestType) (event : Event) : Bool :=
  match readOutcome type event with
  | .ok _ => true
  | .error _ => false

/-- An event is counted if it has no key, or if it is an outcome under a key that is not open. -/
theorem route_gains (g : Gateway) (type : RequestType) (event : Event) (now : Timestamp) :
    Gains false g.metrics (g.route type event now).2.metrics
      (match event.metadata.correlationKey? with
        | none => [.uncorrelated type.domain]
        | some key =>
          if isOutcome type event && !g.waiting.isOpen key then [.uncorrelated type.domain]
          else []) := by
  rw [route, isOutcome]
  cases event.metadata.correlationKey? with
  | none => exact .count g.metrics rfl
  | some key =>
    cases readOutcome type event with
    | error e => exact .refl g.metrics
    | ok outcome =>
        change Gains false g.metrics (g.deliver type key outcome now).metrics
          (if true && !g.waiting.isOpen key then [.uncorrelated type.domain] else [])
        have hgains := g.deliver_gains type key outcome now
        cases hopen : g.waiting.isOpen key <;> rw [hopen] at hgains <;> exact hgains

end Gateway

/-! ## The ledger -/

theorem Treatment.ofLedger_series {treatment : Treatment} {s : Series}
    (h : s ∈ treatment.series) : s.ofLedger = true := by
  cases treatment <;> simp only [series, List.mem_singleton, List.not_mem_nil] at h <;>
    rw [h] <;> rfl

/-- What a message makes the ledger count is told by how it is treated, whether or not the broker
takes the answer. -/
theorem Backend.process_gains {κ : Type} (b : Backend) (broker : Broker κ) (t : Topics) (e : Event)
    (now : Timestamp) (draw : Draw) :
    Metrics.Gains true b.metrics (b.process broker t e now draw).2.1.metrics
      ((b.store.treatment? e now draw).elim [] Treatment.series) := by
  have hcounted := (b.store.answer_treated t e now draw).2
  rw [process]
  rcases hanswer : b.store.answer t e now draw with ⟨error | verdict, store⟩ <;>
    rw [hanswer] at hcounted
  · cases htreatment : b.store.treatment? e now draw with
    | none => exact .refl b.metrics
    | some treatment =>
        rw [htreatment] at hcounted
        cases hcounted
  · cases htreatment : b.store.treatment? e now draw with
    | none =>
        rw [htreatment] at hcounted
        cases hcounted
    | some treatment =>
        rw [htreatment] at hcounted
        have hseries : verdict.counted = treatment.series := Option.some.inj hcounted
        have hgains : Metrics.Gains true b.metrics (b.metrics.countAll verdict.counted)
            treatment.series := by
          rw [hseries]
          exact .countAll b.metrics fun _ => Treatment.ofLedger_series
        dsimp only
        rcases broker.publish verdict.topic verdict.event with ⟨_ | _, _⟩ <;> exact hgains

end KeyedLedger
