import KeyedLedger.Broker
import KeyedLedger.Proofs.Gateway.Slots

/-! # Reading from a broker

A subscriber may read one item after the other, from whichever of its queues it likes. What comes
next in a queue is a notice of what has been lost there, or the oldest event that waits. To receive
all that waits is to read every queue to its end.
-/

namespace KeyedLedger

namespace Queue

/-- What comes next, and the queue without it. -/
def read? (q : Queue) : Option (Except BrokerError Event × Queue) :=
  q.contents.head?.map fun item =>
    (item, if q.lost = 0 then { q with waiting := q.waiting.tail } else { q with lost := 0 })

variable {q q' : Queue} {item : Except BrokerError Event}

theorem contents_of_lost_eq_zero (h : q.lost = 0) :
    q.contents = q.waiting.map fun p => .ok p.event := by
  rw [contents, notice, if_pos h, List.nil_append]

theorem contents_emptied (q : Queue) : q.emptied.contents = [] :=
  rfl

/-- What is read has come first, and all else stays. -/
theorem contents_of_read? (h : q.read? = some (item, q')) :
    q.contents = item :: q'.contents ∧ q'.topic = q.topic ∧ q'.lost = 0 := by
  rw [read?] at h
  by_cases hlost : q.lost = 0
  · rw [if_pos hlost, contents_of_lost_eq_zero hlost] at h
    rw [contents_of_lost_eq_zero hlost]
    cases hwaiting : q.waiting with
    | nil =>
        rw [hwaiting] at h
        cases h
    | cons p rest =>
        rw [hwaiting] at h
        cases h
        have hrest : ({ q with waiting := rest } : Queue).contents = rest.map fun p => .ok p.event :=
          contents_of_lost_eq_zero hlost
        refine ⟨?_, rfl, hlost⟩
        rw [List.tail_cons, hrest]
        rfl
  · rw [if_neg hlost, contents, notice, if_neg hlost] at h
    cases h
    refine ⟨?_, rfl, rfl⟩
    rw [contents, notice, if_neg hlost]
    rfl

/-- A queue that has room for it takes an event of its topic behind the others, and no other event.
-/
theorem contents_push {capacity : Nat} {topic : String} (hlost : q.lost = 0)
    (hroom : q.topic = topic → q.waiting.length < capacity) (posting : Posting) :
    (q.push capacity topic posting).lost = 0 ∧
      (q.push capacity topic posting).contents =
        q.contents ++ (if topic = q.topic then [posting.event] else []).map .ok := by
  by_cases htopic : q.topic = topic
  · have hexcess : (q.waiting ++ [posting]).length - capacity = 0 := by
      have hfits := hroom htopic
      rw [List.length_append, List.length_singleton]
      omega
    have hpush : q.push capacity topic posting = { q with waiting := q.waiting ++ [posting] } := by
      rw [push, if_pos htopic]
      simp only [hexcess, List.drop_zero, Nat.add_zero]
    have hcontents : ({ q with waiting := q.waiting ++ [posting] } : Queue).contents =
        (q.waiting ++ [posting]).map fun p => .ok p.event := contents_of_lost_eq_zero hlost
    rw [hpush, hcontents, if_pos htopic.symm, contents_of_lost_eq_zero hlost, List.map_append]
    exact ⟨hlost, rfl⟩
  · rw [push, if_neg htopic, if_neg (Ne.symm htopic), List.map_nil, List.append_nil]
    exact ⟨hlost, rfl⟩

theorem topic_push (capacity : Nat) (topic : String) (posting : Posting) (q : Queue) :
    (q.push capacity topic posting).topic = q.topic := by
  rw [push]
  split <;> rfl

end Queue

namespace Broker

variable {κ : Type} [DecidableEq κ] {b : Broker κ}

/-- The broker with the queues of one subscription changed. -/
def change (b : Broker κ) (name : κ) (f : List Queue → List Queue) : Broker κ :=
  { b with subscriptions := b.subscriptions.map fun (n, qs) => (n, if n = name then f qs else qs) }

/-- A subscriber reads one item from one of its queues. -/
def read? (b : Broker κ) (name : κ) (place : Nat) :
    Option (Except BrokerError Event × Broker κ) := do
  let queues ← b.queues? name
  let q ← queues[place]?
  let (item, q) ← q.read?
  some (item, b.change name (·.set place q))

/-! ## The queues of a subscription -/

theorem queues?_change (b : Broker κ) (name other : κ) (f : List Queue → List Queue) :
    (b.change name f).queues? other =
      if other = name then (b.queues? other).map f else b.queues? other := by
  refine (Waiting.lookup_map (fun n qs => if n = name then f qs else qs) b.subscriptions other).trans
    ?_
  split
  · rfl
  · exact Option.map_id'

theorem queues?_unsubscribe (b : Broker κ) (name other : κ) :
    (b.unsubscribe name).queues? other = if other = name then none else b.queues? other :=
  Waiting.lookup_filter_ne b.subscriptions name other

theorem queues?_subscribe (h : b.reachable = true) (name other : κ) (topics : List String) :
    (b.subscribe name topics).queues? other =
      if other = name then some (topics.map fun t => { topic := t }) else b.queues? other := by
  rw [subscribe, if_pos h, queues?, List.lookup_append, Waiting.lookup_cons_ite, List.lookup_nil]
  change ((b.unsubscribe name).queues? other).or _ = _
  rw [queues?_unsubscribe]
  split
  · rfl
  · rw [Option.or_none]

theorem queues?_publish (h : b.reachable = true) (topic : String) (e : Event) (other : κ) :
    (b.publish topic e).2.queues? other =
      (b.queues? other).map fun qs => qs.map (Queue.push b.capacity topic ⟨b.sent, e⟩) := by
  rw [publish, if_pos h]
  exact Waiting.lookup_map
    (fun _ qs => qs.map (Queue.push b.capacity topic ⟨b.sent, e⟩)) b.subscriptions other

/-- Nothing is read, or what comes next in the queue of that place. -/
theorem read?_cases (b : Broker κ) (name : κ) (place : Nat) :
    b.read? name place = none ∨ ∃ queues q item q', b.queues? name = some queues ∧
      queues[place]? = some q ∧ q.read? = some (item, q') ∧
      b.read? name place = some (item, b.change name (·.set place q')) := by
  rw [read?]
  rcases b.queues? name with _ | queues
  · exact .inl rfl
  rcases hq : queues[place]? with _ | q
  · exact .inl (by simp [hq])
  rcases hread : q.read? with _ | ⟨item, q'⟩
  · exact .inl (by simp [hq, hread])
  · exact .inr ⟨queues, q, item, q', rfl, hq, hread, by simp [hq, hread]⟩

/-- Nobody is there, or everything that waits is received. -/
theorem receive?_cases (b : Broker κ) (name : κ) :
    b.queues? name = none ∧ b.receive? name = none ∨ ∃ queues, b.queues? name = some queues ∧
      b.receive? name =
        some (queues.flatMap Queue.contents, b.change name (·.map Queue.emptied)) := by
  rw [receive?]
  rcases b.queues? name with _ | queues
  · exact .inl ⟨rfl, rfl⟩
  · exact .inr ⟨queues, rfl, rfl⟩

/-! ## The record -/

omit [DecidableEq κ] in
theorem publishedTo_publish (h : b.reachable = true) (topic other : String) (e : Event) :
    (b.publish topic e).2.publishedTo other =
      b.publishedTo other ++ if topic = other then [e] else [] := by
  rw [publish, if_pos h, publishedTo, publishedTo, List.filter_append, List.map_append]
  by_cases htopic : topic = other <;> simp [htopic]

/-! Nothing depends on the record. -/

omit [DecidableEq κ] in
theorem publish_clear (b : Broker κ) (topic : String) (e : Event) :
    (b.clear.publish topic e).2.clear = (b.publish topic e).2.clear := by
  have hreachable : b.clear.reachable = b.reachable := rfl
  rw [publish, publish, hreachable]
  split <;> rfl

theorem read?_clear (b : Broker κ) (name : κ) (place : Nat) :
    b.clear.read? name place = (b.read? name place).map fun read => (read.1, read.2.clear) := by
  have hqueues : b.clear.queues? name = b.queues? name := rfl
  rw [read?, read?, hqueues]
  rcases b.queues? name with _ | queues
  · rfl
  rcases hq : queues[place]? with _ | q
  · simp [hq]
  rcases hread : q.read? with _ | ⟨item, q'⟩
  · simp [hq, hread]
  · simp [hq, hread, change, clear]

theorem receive?_clear (b : Broker κ) (name : κ) :
    b.clear.receive? name = (b.receive? name).map fun read => (read.1, read.2.clear) := by
  have hqueues : b.clear.queues? name = b.queues? name := rfl
  rw [receive?, receive?, hqueues]
  rcases b.queues? name with _ | queues <;> rfl

end Broker

end KeyedLedger
