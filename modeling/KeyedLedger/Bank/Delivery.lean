import KeyedLedger.Bank.Basic

/-! # Delivery

Messages are delivered one at a time, in the order of their publication. What a recipient does
with a message may publish another one. Only commands are answered and no answer is a command, so
after every message has been delivered, and every answer to one, nothing is left.
-/

namespace KeyedLedger

namespace Bank

/-- The ledger takes a message, with fresh identifiers for what it may have to store. -/
def judge (s : Bank) (event : Event) : Except VerdictError Unit × Bank :=
  let (draw, supply) := s.supply.draw
  match s.backend.process s.broker s.topics event s.now draw with
  | (result, backend, broker) =>
    (result, { s with supply := supply, backend := backend, broker := broker })

/-- The gateway takes an outcome. -/
def route (s : Bank) (type : RequestType) (event : Event) : Except GatewayError Unit × Bank :=
  match s.gateway.route type event s.now with
  | (result, gateway) => (result, { s with gateway := gateway })

/-- A message reaches its recipient. -/
def accept (s : Bank) (recipient : Recipient) (event : Event) : Bank :=
  match recipient with
  | .ledger => (s.judge event).2
  | .outcomes type => (s.route type event).2

/-- The next message reaches its recipient, if there is one. -/
def deliver? (s : Bank) : Option Bank :=
  match s.broker.next? with
  | some (recipient, event, broker) => some ({ s with broker := broker }.accept recipient event)
  | none => none

/-- Delivers messages until none is left, or so many have been delivered. -/
def deliverUpTo (s : Bank) : Nat → Bank
  | 0 => s
  | n + 1 =>
    match s.deliver? with
    | some s => s.deliverUpTo n
    | none => s

/-- How many messages can still be delivered: those that wait, and an answer to each of them in
every queue. -/
def deliveries (s : Bank) : Nat :=
  let queues := s.broker.subscriptions.flatMap Prod.snd
  (queues.flatMap Queue.waiting).length * (queues.length + 1)

/-- Delivers every message. -/
def settle (s : Bank) : Bank :=
  s.deliverUpTo s.deliveries

end Bank

end KeyedLedger
