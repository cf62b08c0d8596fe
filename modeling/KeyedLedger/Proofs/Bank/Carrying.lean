import KeyedLedger.Bank.Delivery
import KeyedLedger.Proofs.Ledger.Verdict

/-! # A broker that carries one message

Between a gateway and a ledger there is at most one message on its way: a command, or the outcome
that answers it. While no two topics have one name the message waits in a single queue, so it
reaches a single recipient, once.
-/

namespace KeyedLedger

namespace Topics

/-- No two topics have one name. -/
def Distinct (t : Topics) : Prop :=
  (t.commands ++ t.outcomes).Nodup

instance (t : Topics) : Decidable t.Distinct :=
  inferInstanceAs (Decidable (List.Nodup _))

/-- The topics that a recipient listens to. -/
def heardBy (t : Topics) : Recipient → List String
  | .ledger => t.commands
  | .outcomes type => t.outcomesOf type

/-- One queue for each of some topics, with what waits there. -/
def queues (topics : List String) (waiting : String → List Posting) : List Queue :=
  topics.map fun topic => { topic := topic, waiting := waiting topic }

/-- The subscriptions of a bank, with what waits on each topic. -/
def subscriptions (t : Topics) (waiting : String → List Posting) :
    List (Recipient × List Queue) :=
  [Recipient.outcomes .openAccount, .outcomes .applyTransaction, .ledger].map fun recipient =>
    (recipient, queues (t.heardBy recipient) waiting)

variable {topics : List String} {topic : String} {p : Posting}

/-- What waits on a topic while one message is on its way, or none. -/
def waitingOn : Option (String × Posting) → String → List Posting
  | none, _ => []
  | some (topic, p), other => if other = topic then [p] else []

theorem queues_waitingOn_of_not_mem (h : topic ∉ topics) :
    queues topics (waitingOn (some (topic, p))) = queues topics (waitingOn none) := by
  apply List.map_congr_left
  rintro other hother
  have hne : other ≠ topic := by
    rintro rfl
    exact h hother
  simp only [waitingOn, if_neg hne]

theorem take_queues_idle (n : Nat) : Broker.take n (queues topics (waitingOn none)) = none := by
  induction topics with
  | nil => rfl
  | cons other topics ih =>
      change (Broker.take n (queues topics (waitingOn none))).map _ = none
      rw [ih]
      rfl

/-- The message is taken from the one queue in which it waits. -/
theorem take_queues (hnodup : topics.Nodup) (h : topic ∈ topics) :
    Broker.take p.number (queues topics (waitingOn (some (topic, p)))) =
      some (p.event, queues topics (waitingOn none)) := by
  induction topics with
  | nil => simp at h
  | cons other topics ih =>
      rw [List.nodup_cons] at hnodup
      rw [queues, List.map_cons, ← queues, Broker.take]
      by_cases hother : other = topic
      · have hrest := queues_waitingOn_of_not_mem (p := p) (hother ▸ hnodup.1)
        simp only [waitingOn, if_pos hother, hrest, if_true]
        rfl
      · have hmem : topic ∈ topics := (List.mem_cons.mp h).resolve_left (Ne.symm hother)
        simp only [waitingOn, if_neg hother, ih hnodup.2 hmem, Option.map_some]
        rfl

theorem numbers_queues (topics : List String) (topic : String) (p : Posting) :
    (queues topics (waitingOn (some (topic, p)))).filterMap
        (fun q => q.waiting.head?.map Posting.number) =
      (topics.filter fun other => other = topic).map fun _ => p.number := by
  induction topics with
  | nil => rfl
  | cons other topics ih =>
      rw [queues, List.map_cons, ← queues, List.filterMap_cons, ih]
      by_cases hother : other = topic <;> simp [waitingOn, hother]

theorem flatMap_subscriptions (t : Topics) (waiting : String → List Posting) :
    (t.subscriptions waiting).flatMap Prod.snd = queues (t.outcomes ++ t.commands) waiting := by
  simp [subscriptions, queues, outcomes, heardBy, outcomesOf]

theorem Distinct.nodup_heardBy {t : Topics} (h : t.Distinct) (recipient : Recipient) :
    (t.heardBy recipient).Nodup := by
  rw [Distinct, outcomes, List.nodup_append, List.nodup_append] at h
  rcases recipient with _ | _ | _
  · exact h.1
  · exact h.2.1.1
  · exact h.2.1.2.1

/-- A topic is listened to by one recipient. -/
theorem Distinct.heardBy_unique {t : Topics} (h : t.Distinct) {recipient other : Recipient}
    (htopic : topic ∈ t.heardBy recipient) (hother : topic ∈ t.heardBy other) :
    other = recipient := by
  rw [Distinct, outcomes, List.nodup_append, List.nodup_append] at h
  obtain ⟨-, ⟨-, -, hdomains⟩, hsides⟩ := h
  have hcommand : ∀ type, topic ∈ t.commands → topic ∉ t.outcomesOf type := by
    intro type hc ho
    refine hsides _ hc _ ?_ rfl
    cases type
    · exact List.mem_append_left _ ho
    · exact List.mem_append_right _ ho
  rcases recipient with _ | _ | _ <;> rcases other with _ | _ | _ <;> try rfl
  · exact absurd hother (hcommand .openAccount htopic)
  · exact absurd hother (hcommand .applyTransaction htopic)
  · exact absurd htopic (hcommand .openAccount hother)
  · exact absurd rfl (hdomains _ htopic _ hother)
  · exact absurd htopic (hcommand .applyTransaction hother)
  · exact absurd rfl (hdomains _ hother _ htopic)

theorem mem_of_heardBy {t : Topics} {recipient : Recipient} (h : topic ∈ t.heardBy recipient) :
    topic ∈ t.outcomes ++ t.commands := by
  rcases recipient with _ | _ | _
  · exact List.mem_append_right _ h
  · exact List.mem_append_left _ (List.mem_append_left _ h)
  · exact List.mem_append_left _ (List.mem_append_right _ h)

end Topics

namespace Broker

/-- The broker of a bank, with one message on its way or none. -/
structure Carries (t : Topics) (b : Broker Recipient) (message : Option (String × Posting)) :
    Prop where
  reachable : b.reachable = true
  capacity : 0 < b.capacity
  subscriptions : b.subscriptions = t.subscriptions (Topics.waitingOn message)

variable {t : Topics} {b : Broker Recipient} {topic : String} {p : Posting}

theorem Carries.publish (h : Carries t b none) (topic : String) (e : Event) :
    ∃ b', b.publish topic e = (.ok (), b') ∧ Carries t b' (some (topic, ⟨b.sent, e⟩)) := by
  have hpush : ∀ topics : List String,
      (Topics.queues topics (Topics.waitingOn none)).map
        (Queue.push b.capacity topic ⟨b.sent, e⟩) =
      Topics.queues topics (Topics.waitingOn (some (topic, ⟨b.sent, e⟩))) := by
    intro topics
    rw [Topics.queues, List.map_map]
    apply List.map_congr_left
    intro name _
    have hroom : 1 - b.capacity = 0 := by
      have := h.capacity
      omega
    by_cases hname : name = topic <;> simp [Queue.push, Topics.waitingOn, hname, hroom]
  refine ⟨_, if_pos h.reachable, h.reachable, h.capacity, ?_⟩
  simp only [h.subscriptions, Topics.subscriptions, List.map_cons, List.map_nil, hpush]

theorem Carries.next?_none (h : Carries t b none) : b.next? = none := by
  have hnumbers : leastNumber? (b.subscriptions.flatMap Prod.snd) = none := by
    simp [leastNumber?, h.subscriptions, Topics.subscriptions, Topics.queues, Topics.waitingOn]
  rw [next?, hnumbers]
  rfl

/-- The message on its way reaches the recipient that listens to its topic. -/
theorem Carries.next?_some (hdistinct : t.Distinct) (h : Carries t b (some (topic, p)))
    {recipient : Recipient} (htopic : topic ∈ t.heardBy recipient) :
    ∃ b', b.next? = some (recipient, p.event, b') ∧ Carries t b' none := by
  have hnumber : leastNumber? (b.subscriptions.flatMap Prod.snd) = some p.number := by
    have hmem : topic ∈ (t.outcomes ++ t.commands).filter fun other => other = topic :=
      List.mem_filter.mpr ⟨Topics.mem_of_heardBy htopic, by simp⟩
    rw [leastNumber?, h.subscriptions, Topics.flatMap_subscriptions, Topics.numbers_queues,
      List.map_const', List.min?_replicate_of_pos (List.length_pos_of_mem hmem)]
  -- No other recipient has a queue in which the message waits.
  have hidle : ∀ other ≠ recipient,
      Topics.queues (t.heardBy other) (Topics.waitingOn (some (topic, p))) =
        Topics.queues (t.heardBy other) (Topics.waitingOn none) := fun other hother =>
    Topics.queues_waitingOn_of_not_mem fun hmem => hother (hdistinct.heardBy_unique htopic hmem)
  have htaken := Topics.take_queues (p := p) (hdistinct.nodup_heardBy recipient) htopic
  have hfind : (b.subscriptions.findSome? fun s =>
      (take p.number s.2).map fun taken => (s.1, taken.1, taken.2)) =
      some (recipient, p.event, Topics.queues (t.heardBy recipient) (Topics.waitingOn none)) := by
    rw [h.subscriptions, Topics.subscriptions]
    rcases recipient with _ | _ | _ <;>
      simp [htaken, hidle, Topics.take_queues_idle]
  have hnext : b.next? = some (recipient, p.event, { b with
      subscriptions := b.subscriptions.map fun (n, qs) => (n, if n = recipient then
        Topics.queues (t.heardBy recipient) (Topics.waitingOn none) else qs) }) := by
    rw [next?, hnumber]
    simp only [Option.bind_eq_bind, Option.bind_some, hfind]
  refine ⟨_, hnext, h.reachable, h.capacity, ?_⟩
  rw [h.subscriptions]
  rcases recipient with _ | _ | _ <;> simp [Topics.subscriptions, hidle]

end Broker

end KeyedLedger
