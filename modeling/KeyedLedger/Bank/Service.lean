import KeyedLedger.Bank.Delivery

/-! # Orders of the bank

An order is answered at once if it is refused, if its key is remembered as completed, or if its
command cannot be published. Otherwise its caller waits. When everything has been delivered a
waiting caller gets the outcome of its key, and if there is none its time is up.
-/

namespace KeyedLedger

/-- How far an order has come. -/
inductive Progress where
  | done (result : Except ServiceError Reply)
  | waiting (type : RequestType) (call : Call)

namespace Bank

/-- Starts a call of the gateway that takes the calls. -/
def startCall (s : Bank) (call : Call) : Except GatewayError Unit × Bank :=
  match s.gateway.start s.broker call s.now with
  | (result, gateway, broker) => (result, { s with gateway := gateway, broker := broker })

/-- Ends a call. -/
def finishCall (s : Bank) (call : Call) (timeout : Span) : Except GatewayError Json × Bank :=
  match s.gateway.finish call timeout with
  | (result, gateway) => (result, { s with gateway := gateway })

/-- A call by itself: it starts, everything is delivered, and it ends. -/
def send (s : Bank) (call : Call) (timeout : Span) : Except GatewayError Json × Bank :=
  match s.startCall call with
  | (.error e, s) => (.error e, s.settle)
  | (.ok (), s) => s.settle.finishCall call timeout

/-- The result of an order whose call has failed; the memory takes note of it. -/
def failed (s : Bank) (key : String) (e : GatewayError) : Except ServiceError Reply × Bank :=
  (.error (.ofGateway e), s.withMemory (s.memory.afterFailure key e))

/-- Starts an order. -/
def start (s : Bank) (order : Order) (key requestId : String) : Progress × Bank :=
  match order.toCall s.topics key requestId with
  | .error e => (.done (.error e), s)
  | .ok call =>
    match s.memory.answer? s.now key call.requestType with
    | some known => (.done (known.bind (Order.reply order.requestType)), s)
    | none =>
      match (s.withMemory (s.memory.markInFlight s.now key)).startCall call with
      | (.ok (), s) => (.waiting order.requestType call, s)
      | (.error e, s) =>
        match s.failed key e with
        | (result, s) => (.done result, s)

/-- Ends an order. -/
def finish (s : Bank) : Progress → Except ServiceError Reply × Bank
  | .done result => (result, s)
  | .waiting type call =>
    match s.finishCall call s.timeout with
    | (.ok payload, s) => (Order.reply type payload, s)
    | (.error e, s) => s.failed call.key e

/-- An order by itself: it starts, everything is delivered, and it ends. -/
def execute (s : Bank) (order : Order) (key requestId : String) :
    Except ServiceError Reply × Bank :=
  match s.start order key requestId with
  | (progress, s) => s.settle.finish progress

/-- Starts each of some orders, given with their keys and the names of the requests. -/
def startAll (s : Bank) : List (Order × String × String) → List Progress × Bank
  | [] => ([], s)
  | (order, key, requestId) :: rest =>
    match s.start order key requestId with
    | (progress, s) =>
      match s.startAll rest with
      | (others, s) => (progress :: others, s)

/-- Ends each of some orders. -/
def finishAll (s : Bank) : List Progress → List (Except ServiceError Reply) × Bank
  | [] => ([], s)
  | progress :: rest =>
    match s.finish progress with
    | (result, s) =>
      match s.finishAll rest with
      | (others, s) => (result :: others, s)

/-- Orders at the same time: all of them start before anything is delivered. -/
def executeAll (s : Bank) (orders : List (Order × String × String)) :
    List (Except ServiceError Reply) × Bank :=
  match s.startAll orders with
  | (progress, s) => s.settle.finishAll progress

/-- Publishes an event, and delivers everything. -/
def publish (s : Bank) (topic : String) (event : Event) : Except BrokerError Unit × Bank :=
  match s.broker.publish topic event with
  | (result, broker) => (result, { s with broker := broker }.settle)

end Bank

end KeyedLedger
