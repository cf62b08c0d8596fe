import KeyedLedger.Event.Envelope

/-! # The broker

A broker keeps a record of what has been published and a queue for each topic of each
subscription. An event goes into every queue of its topic that is there when it is published, in
the order of publication. A queue has room for a number of events; when it is full the oldest
event is lost, and the subscriber is told how many were lost before it gets the others.

A broker that is out of reach takes nothing and delivers nothing.
-/

namespace KeyedLedger

/-- An event with the number of its publication. -/
structure Posting where
  number : Nat
  event : Event

/-- What waits for a subscriber on one topic, oldest first. -/
structure Queue where
  topic : String
  lost : Nat := 0
  waiting : List Posting := []

namespace Queue

/-- The queue with one more event, if it is one of its topic. -/
def push (capacity : Nat) (topic : String) (posting : Posting) (q : Queue) : Queue :=
  if q.topic = topic then
    let waiting := q.waiting ++ [posting]
    { q with
      lost := q.lost + (waiting.length - capacity)
      waiting := waiting.drop (waiting.length - capacity) }
  else q

/-- What the subscriber is told of lost events. -/
def notice (q : Queue) : List (Except BrokerError Event) :=
  if q.lost = 0 then []
  else [.error (.transport s!"subscriber on '{q.topic}' lagged by {q.lost} events")]

/-- All that waits, a notice of lost events first. -/
def contents (q : Queue) : List (Except BrokerError Event) :=
  q.notice ++ q.waiting.map fun p => .ok p.event

/-- The queue once it has been read to its end. -/
def emptied (q : Queue) : Queue :=
  { q with lost := 0, waiting := [] }

end Queue

/-- A broker whose subscriptions are named by `κ`. -/
structure Broker (κ : Type) where
  capacity : Nat := 1024
  reachable : Bool := true
  record : List (String × Event) := []
  sent : Nat := 0
  subscriptions : List (κ × List Queue) := []

namespace Broker

variable {κ : Type} [DecidableEq κ]

instance : Inhabited (Broker κ) := ⟨{}⟩

/-- The first of `size`, its double, the double of that and so on that is not below a number. -/
def roundUp (n : Nat) : (fuel size : Nat) → Nat
  | 0, size => size
  | fuel + 1, size => if n ≤ size then size else roundUp n fuel (2 * size)

/-- A broker whose queues have room for a number of events, rounded up to a power of two. -/
def withCapacity (capacity : Nat) (reachable : Bool) : Broker κ :=
  { capacity := roundUp capacity capacity 1, reachable := reachable }

/-- Publishes an event. -/
def publish (b : Broker κ) (topic : String) (event : Event) : Except BrokerError Unit × Broker κ :=
  if b.reachable then
    (.ok (), { b with
      record := b.record ++ [(topic, event)]
      sent := b.sent + 1
      subscriptions := b.subscriptions.map fun (name, queues) =>
        (name, queues.map (Queue.push b.capacity topic ⟨b.sent, event⟩)) })
  else (.error (.publishFailed topic "broker unavailable"), b)

/-- Ends a subscription. -/
def unsubscribe (b : Broker κ) (name : κ) : Broker κ :=
  { b with subscriptions := b.subscriptions.filter fun s => s.1 ≠ name }

/-- Subscribes to a list of topics, as often as each is listed. A subscription of the name that
is there gives way. -/
def subscribe (b : Broker κ) (name : κ) (topics : List String) : Broker κ :=
  let listed := if b.reachable then topics else []
  { b with subscriptions := (b.unsubscribe name).subscriptions ++
      [(name, listed.map fun t => { topic := t })] }

/-- The queues of a subscription. -/
def queues? (b : Broker κ) (name : κ) : Option (List Queue) :=
  b.subscriptions.lookup name

/-- All that waits for a subscriber, topic by topic. -/
def receive? (b : Broker κ) (name : κ) :
    Option (List (Except BrokerError Event) × Broker κ) :=
  (b.queues? name).map fun queues =>
    (queues.flatMap Queue.contents, { b with
      subscriptions := b.subscriptions.map fun (n, qs) =>
        (n, if n = name then qs.map Queue.emptied else qs) })

/-- The events published on a topic since the record was cleared, oldest first. -/
def publishedTo (b : Broker κ) (topic : String) : List Event :=
  (b.record.filter fun r => r.1 = topic).map Prod.snd

/-- The queues that there are for a topic. -/
def subscriberCount (b : Broker κ) (topic : String) : Nat :=
  (b.subscriptions.flatMap Prod.snd).countP fun q => q.topic = topic

/-- Forgets what has been published. Nothing that waits is touched. -/
def clear (b : Broker κ) : Broker κ :=
  { b with record := [] }

/-! ## One event at a time -/

/-- The least number of a publication that waits in one of the queues. -/
def leastNumber? (queues : List Queue) : Option Nat :=
  (queues.filterMap fun q => q.waiting.head?.map Posting.number).min?

/-- The queues without the event of a publication where it is the next one, and the event. -/
def take (number : Nat) : List Queue → Option (Event × List Queue)
  | [] => none
  | q :: rest =>
    match q.waiting with
    | p :: waiting =>
      if p.number = number then some (p.event, { q with waiting := waiting } :: rest)
      else (take number rest).map fun (e, qs) => (e, q :: qs)
    | [] => (take number rest).map fun (e, qs) => (e, q :: qs)

/-- The next event for any subscriber in the order of publication, with the subscriber. -/
def next? (b : Broker κ) : Option (κ × Event × Broker κ) := do
  let number ← leastNumber? (b.subscriptions.flatMap Prod.snd)
  let (name, event, queues) ← b.subscriptions.findSome? fun (name, queues) =>
    (take number queues).map fun (event, rest) => (name, event, rest)
  some (name, event, { b with
    subscriptions := b.subscriptions.map fun (n, qs) => (n, if n = name then queues else qs) })

end Broker

end KeyedLedger
