import KeyedLedger.Event.Envelope

/-! # Consumers

A consumer subscribes to topics and gives every event that it receives to a handler, one after the
other. Whatever the handler does with an event, the next event is taken. When a subscription fails
or ends the consumer pauses and subscribes again. It waits at three places: for a subscription, for
the next event and in a pause. A shutdown is seen wherever it waits, and then it stops.
-/

namespace KeyedLedger

/-- What a consumer is made of. -/
inductive ConsumerPart where
  | name
  | topics
  | eventBus
  | handler
  | shutdown
deriving DecidableEq, Repr

namespace ConsumerPart

/-- The parts, in the order in which they are asked for. -/
def all : List ConsumerPart :=
  [name, topics, eventBus, handler, shutdown]

/-- The name of a part. -/
def label : ConsumerPart → String
  | name => "name"
  | topics => "topics"
  | eventBus => "event_bus"
  | handler => "handler"
  | shutdown => "shutdown"

/-- The first part that is not given. -/
def missing? (given : List ConsumerPart) : Option ConsumerPart :=
  all.find? fun part => part ∉ given

/-- What is said of a part that is not given. -/
def missingMessage (part : ConsumerPart) : String :=
  s!"EventConsumer is missing required field '{part.label}'"

end ConsumerPart

/-- How an attempt to subscribe turns out. -/
inductive Attempted (α : Type) where
  | fails
  /-- Events and failures of the transport arrive, and then the subscription ends. -/
  | delivers (items : List (Except BrokerError α))

/-- What a handler does with an event. -/
inductive Handling where
  | succeeds
  | fails (reason : String)
  | panics
deriving DecidableEq, Repr

/-- What a consumer has done. -/
inductive Deed (α : Type) where
  | subscribed (time : Nat)
  | handled (event : α) (handling : Handling)

/-- What a consumer waits for. -/
inductive Wait (α : Type) where
  | subscription
  | item (rest : List (Except BrokerError α))
  /-- Nothing will arrive any more. -/
  | silence
  | pause
  | stopped

/-- A consumer at work. Times are in milliseconds. -/
structure Consumer (α : Type) where
  pauseLength : Nat := 5000
  attempts : List (Attempted α)
  time : Nat := 0
  wait : Wait α := .subscription
  deeds : List (Deed α) := []

namespace Consumer

variable {α : Type}

/-- The consumer after one more deed. -/
def note (c : Consumer α) (deed : Deed α) : Consumer α :=
  { c with deeds := c.deeds ++ [deed] }

/-- The consumer once what it waits for has come. -/
def step (handler : α → Handling) (c : Consumer α) : Consumer α :=
  match c.wait with
  | .subscription =>
    let c := c.note (.subscribed c.time)
    match c.attempts with
    | [] => { c with wait := .silence }
    | .fails :: rest => { c with attempts := rest, wait := .pause }
    | .delivers items :: rest => { c with attempts := rest, wait := .item items }
  | .item [] => { c with wait := .pause }
  | .item (.ok event :: rest) =>
    { c.note (.handled event (handler event)) with wait := .item rest }
  | .item (.error _ :: rest) => { c with wait := .item rest }
  | .pause => { c with time := c.time + c.pauseLength, wait := .subscription }
  | .silence => c
  | .stopped => c

/-- The consumer once it has seen a shutdown. -/
def stop (c : Consumer α) : Consumer α :=
  { c with wait := .stopped }

/-- When what the consumer waits for comes, if it does. -/
def due? (c : Consumer α) : Option Nat :=
  match c.wait with
  | .subscription => some c.time
  | .item _ => some c.time
  | .pause => some (c.time + c.pauseLength)
  | .silence => none
  | .stopped => none

/-- The consumer until it sees a shutdown that is signalled at a time, at most `fuel` steps. -/
def runFor (handler : α → Handling) (deadline : Nat) (c : Consumer α) : (fuel : Nat) → Consumer α
  | 0 => c.stop
  | fuel + 1 =>
    match c.due? with
    | none => c.stop
    | some time => if time < deadline then (c.step handler).runFor handler deadline fuel else c.stop

/-- The steps that an attempt takes, its pause included. -/
def stepsOf : Attempted α → Nat
  | .fails => 2
  | .delivers items => items.length + 3

/-- The consumer until it sees a shutdown that is signalled at a time. A new consumer comes to its
last attempt within so many steps. -/
def runUntil (handler : α → Handling) (deadline : Nat) (c : Consumer α) : Consumer α :=
  c.runFor handler deadline ((c.attempts.map stepsOf).foldl Nat.add 2)

end Consumer

end KeyedLedger
