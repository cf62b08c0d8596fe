import KeyedLedger.Json.Decoder

/-! # The live feed

Whoever subscribes to a topic is told of everything that is published on it from then on, once for
each subscription.

A client listens over a connection. It asks for topics, stops asking for them, or sends a ping;
the first and the last are answered. A text that is no such message is passed over, and so is a
frame that is no text. Each subscription of a client is held by a task that forwards what is
published, and for each topic the connection keeps the handle of one task, by which the task is
ended. A topic that has a handle is not subscribed to again. When the connection is closed the
tasks that it has handles of are ended, and nothing can be sent any more.
-/

namespace KeyedLedger

/-- What a client asks for. -/
inductive ClientMessage where
  | subscribe (topics : List String)
  | unsubscribe (topics : List String)
  | ping
deriving DecidableEq

namespace ClientMessage

/-- The message as JSON. -/
def toJson : ClientMessage → Json
  | subscribe topics =>
    .object [("type", .string "subscribe"), ("topics", .array (topics.map .string))]
  | unsubscribe topics =>
    .object [("type", .string "unsubscribe"), ("topics", .array (topics.map .string))]
  | ping => .object [("type", .string "ping")]

/-- The record of each kind of message, by name. -/
def variant? : String → Option (Decoder ClientMessage)
  | "subscribe" => some (subscribe <$> Shape.field "topics" (.list .string)).decoder
  | "unsubscribe" => some (unsubscribe <$> Shape.field "topics" (.list .string)).decoder
  | "ping" => some (Shape.empty ping).decoder
  | _ => none

/-- The message in a JSON text. -/
def decoder : Decoder ClientMessage :=
  Shape.tagged "type" variant? Document.maxDepth

end ClientMessage

/-- What a client is sent. -/
inductive ServerMessage where
  | subscribed (topics : List String)
  | event (topic : String) (payload : Json)
  | pong

namespace ServerMessage

/-- The message as JSON. -/
def toJson : ServerMessage → Json
  | subscribed topics =>
    .object [("type", .string "subscribed"), ("topics", .array (topics.map .string))]
  | event topic payload =>
    .object [("type", .string "event"), ("topic", .string topic), ("payload", payload)]
  | pong => .object [("type", .string "pong")]

/-- The record of each kind of message, by name. -/
def variant? : String → Option (Decoder ServerMessage)
  | "subscribed" => some (subscribed <$> Shape.field "topics" (.list .string)).decoder
  | "event" =>
    some (event <$> Shape.field "topic" .string
      <*> .field "payload" (.json Document.maxDepth)).decoder
  | "pong" => some (Shape.empty pong).decoder
  | _ => none

/-- The message in a JSON text. -/
def decoder : Decoder ServerMessage :=
  Shape.tagged "type" variant? Document.maxDepth

end ServerMessage

/-- Who listens: a subscriber within the program, or a client at the other end of a
connection. -/
inductive ListenerName where
  | subscriber (name : String)
  | client (name : String)
deriving DecidableEq

/-- A task that holds a subscription to a topic and forwards what it is told. -/
structure Forwarder where
  number : Nat
  topic : String
deriving DecidableEq

/-- A listener: the tasks that run for it, the handle of a task for each topic, how many tasks have
been started, and what has not been received yet, oldest first. A listener is taken to keep up with
what is published: nothing that it has not received is dropped. -/
structure Listener where
  forwarders : List Forwarder := []
  handles : List (String × Nat) := []
  started : Nat := 0
  connected : Bool := true
  inbox : List ServerMessage := []

namespace Listener

/-- The tasks that run for a topic. -/
def running (l : Listener) (topic : String) : List Forwarder :=
  l.forwarders.filter fun f => f.topic = topic

/-- The listener with one more task for a topic. Its handle takes the place of another one that is
kept for the topic. -/
def start (l : Listener) (topic : String) : Listener :=
  { l with
    forwarders := l.forwarders ++ [⟨l.started, topic⟩]
    handles := (topic, l.started) :: l.handles.filter fun h => h.1 ≠ topic
    started := l.started + 1 }

/-- There is a handle for a topic. -/
def holds (l : Listener) (topic : String) : Bool :=
  (l.handles.lookup topic).isSome

/-- The listener with a topic taken up, unless there is a handle for it. -/
def take (l : Listener) (topic : String) : Listener :=
  if l.holds topic then l else l.start topic

/-- The listener with a topic dropped: the task whose handle is kept for it is ended. -/
def drop (l : Listener) (topic : String) : Listener :=
  match l.handles.lookup topic with
  | some number =>
    { l with
      forwarders := l.forwarders.filter fun f => f.number ≠ number
      handles := l.handles.filter fun h => h.1 ≠ topic }
  | none => l

/-- The listener with one more message to receive. -/
def tell (l : Listener) (message : ServerMessage) : Listener :=
  { l with inbox := l.inbox ++ [message] }

/-- The listener once something has been published: each task of the topic forwards it, or ends if
nothing can be sent. -/
def hear (l : Listener) (topic : String) (payload : Json) : Listener :=
  if l.connected then
    { l with inbox := l.inbox ++ (l.running topic).map fun _ => .event topic payload }
  else { l with forwarders := l.forwarders.filter fun f => f.topic ≠ topic }

/-- The listener after the end of its connection. -/
def disconnect (l : Listener) : Listener :=
  { l with
    forwarders := l.forwarders.filter fun f => f.number ∉ l.handles.map Prod.snd
    handles := []
    connected := false }

/-- The listener once it has done what its client asks for. -/
def obey (l : Listener) : ClientMessage → Listener
  | .subscribe topics => (topics.foldl take l).tell (.subscribed topics)
  | .unsubscribe topics => topics.foldl drop l
  | .ping => l.tell .pong

end Listener

/-- What a client sends. -/
inductive Frame where
  | text (s : String)
  | binary
  | close

/-- The listener after a frame from its client. -/
def Listener.handle (l : Listener) (frame : Frame) : Listener :=
  if l.connected then
    match frame with
    | .text s =>
      match ClientMessage.decoder.ofString s with
      | .ok message => l.obey message
      | .error _ => l
    | .binary => l
    | .close => l.disconnect
  else l

/-- The listeners, and the topics that have been published on or subscribed to. -/
structure Feed where
  opened : List String := []
  listeners : List (ListenerName × Listener) := []

namespace Feed

instance : Inhabited Feed := ⟨{}⟩

/-- The feed with its topics and more, each of them once. -/
def opening (f : Feed) (topics : List String) : Feed :=
  { f with opened := topics.foldl (fun ts t => if t ∈ ts then ts else ts ++ [t]) f.opened }

/-- Tells all who are subscribed to a topic, and how many subscriptions there are. -/
def publish (f : Feed) (topic : String) (payload : Json) : Nat × Feed :=
  ((f.listeners.flatMap fun l => l.2.running topic).length,
    { f.opening [topic] with
      listeners := f.listeners.map fun (name, l) => (name, l.hear topic payload) })

/-- The listener of a name. -/
def listener? (f : Feed) (name : ListenerName) : Option Listener :=
  f.listeners.lookup name

/-- A listener goes away. -/
def leave (f : Feed) (name : ListenerName) : Feed :=
  { f with listeners := f.listeners.filter fun l => l.1 ≠ name }

/-- A new listener, in the place of one of its name, that subscribes to each of the topics. -/
def join (f : Feed) (name : ListenerName) (topics : List String) : Feed :=
  { (f.leave name).opening topics with
    listeners := (f.leave name).listeners ++ [(name, topics.foldl Listener.start {})] }

/-- A frame of a client arrives. -/
def handle (f : Feed) (name : ListenerName) (frame : Frame) : Feed :=
  let after := f.listeners.map fun (n, l) => (n, if n = name then l.handle frame else l)
  { f.opening (after.flatMap fun l => l.2.forwarders.map Forwarder.topic) with listeners := after }

/-- What a listener has not received yet. -/
def receive? (f : Feed) (name : ListenerName) : Option (List ServerMessage × Feed) :=
  (f.listener? name).map fun l =>
    (l.inbox, { f with
      listeners := f.listeners.map fun (n, l) =>
        (n, if n = name then { l with inbox := [] } else l) })

end Feed

end KeyedLedger
