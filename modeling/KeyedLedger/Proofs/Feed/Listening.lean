import KeyedLedger.Proofs.Feed.Asking
import KeyedLedger.Proofs.Gateway.Delivery

/-! # What a client of the live feed is sent

All that a client is sent is told by its own frames and by what is published (`transcript`): each
request for topics is acknowledged with the list as it was sent, each ping gets a pong, and each
publication on a topic is sent once if the client has asked for the topic, however often, and has
not dropped it since. Frames that say nothing change nothing, after the end of the connection
nothing is sent, and nobody else is told more or less for what the client does.

The invariant (`Stands`) is that the connection has a handle for each topic that the client wants,
and for no other, and that its tasks are those of its handles (`Listener.Tended`): a topic is
forwarded once because one task runs for it.
-/

namespace KeyedLedger

/-- Whether a message takes up a topic or drops it. -/
def ClientMessage.mention? (topic : String) : ClientMessage → Option Bool
  | subscribe topics => if topic ∈ topics then some true else none
  | unsubscribe topics => if topic ∈ topics then some false else none
  | ping => none

namespace Feed

/-- What somebody else does. -/
inductive Doing where
  | joins (topics : List String)
  | leaves
  | sends (frame : Frame)
  | receives

/-- What happens while a client is connected: its own frames, publications, deliveries to it, and
what others do. -/
inductive Happening (client : ListenerName) where
  | frame (frame : Frame)
  | published (topic : String) (payload : Json)
  | delivered
  | elsewhere (other : ListenerName) (hne : other ≠ client) (doing : Doing)

/-- The feed while a client is connected, and what the client has received. -/
structure Session where
  feed : Feed
  received : List ServerMessage

/-- What somebody does to the feed. -/
def doing (f : Feed) (name : ListenerName) : Doing → Feed
  | .joins topics => f.join name topics
  | .leaves => f.leave name
  | .sends frame => f.handle name frame
  | .receives => ((f.receive? name).map Prod.snd).getD f

namespace Session

/-- The session of a client that has just connected. -/
def opened (f : Feed) (client : ListenerName) : Session :=
  ⟨f.join client [], []⟩

variable {client : ListenerName}

/-- The session after something has happened. -/
def step (s : Session) : Happening client → Session
  | .frame frame => { s with feed := s.feed.handle client frame }
  | .published topic payload => { s with feed := (s.feed.publish topic payload).2 }
  | .delivered =>
    match s.feed.receive? client with
    | some (messages, feed) => ⟨feed, s.received ++ messages⟩
    | none => s
  | .elsewhere other _ doing => { s with feed := s.feed.doing other doing }

/-- The session after all that has happened. -/
def after (s : Session) (h : List (Happening client)) : Session :=
  h.foldl step s

/-- All that the client has been sent: what it has received, and what is on the way. -/
def sent (s : Session) (client : ListenerName) : List ServerMessage :=
  s.received ++ ((s.feed.listener? client).map Listener.inbox).getD []

end Session

/-! ## What a client should be sent -/

variable {client : ListenerName}

namespace Happening

/-- The client ends its connection. -/
def closes : Happening client → Bool
  | frame .close => true
  | _ => false

/-- Whether the client takes up a topic or drops it. -/
def mention? (topic : String) : Happening client → Option Bool
  | frame f => f.asks?.bind (ClientMessage.mention? topic)
  | _ => none

/-- A frame of the client. -/
def own : Happening client → Bool
  | frame _ => true
  | _ => false

end Happening

/-- The connection has ended. -/
def closed (h : List (Happening client)) : Bool :=
  h.any Happening.closes

/-- The client is connected, and when it last mentioned a topic it took it up. -/
def listens (h : List (Happening client)) (topic : String) : Bool :=
  !closed h && (h.filterMap (Happening.mention? topic)).getLast? == some true

/-- What a message is answered with. -/
def reply : ClientMessage → List ServerMessage
  | .subscribe topics => [.subscribed topics]
  | .unsubscribe _ => []
  | .ping => [.pong]

/-- What the client is sent for what happens after all that has happened before. -/
def answer (before : List (Happening client)) : Happening client → List ServerMessage
  | .frame frame =>
    if closed before then [] else frame.asks?.elim [] reply
  | .published topic payload => if listens before topic then [.event topic payload] else []
  | .delivered => []
  | .elsewhere .. => []

/-- All that the client is sent after what has happened before. -/
def transcript (before : List (Happening client)) : List (Happening client) → List ServerMessage
  | [] => []
  | first :: later => answer before first ++ transcript (before ++ [first]) later

theorem transcript_append (before h later : List (Happening client)) :
    transcript before (h ++ later) = transcript before h ++ transcript (before ++ h) later := by
  induction h generalizing before with
  | nil => rw [List.nil_append, List.append_nil, transcript, List.nil_append]
  | cons first h ih =>
      rw [List.cons_append, transcript, transcript, ih, List.append_assoc, List.append_assoc,
        List.singleton_append]

theorem transcript_concat (h : List (Happening client)) (a : Happening client) :
    transcript [] (h ++ [a]) = transcript [] h ++ answer h a := by
  rw [transcript_append, List.nil_append, transcript, transcript, List.append_nil]

theorem closed_concat (h : List (Happening client)) (a : Happening client) :
    closed (h ++ [a]) = (closed h || a.closes) := by
  rw [closed, List.any_append, List.any_cons, List.any_nil, Bool.or_false]
  rfl

theorem closed_concat_of_not {h : List (Happening client)} {a : Happening client}
    (ha : a.closes = false) : closed (h ++ [a]) = closed h := by
  rw [closed_concat, ha, Bool.or_false]

/-- The last mention of a topic counts. -/
theorem listens_concat (h : List (Happening client)) (a : Happening client) (topic : String) :
    listens (h ++ [a]) topic =
      (!a.closes && ((a.mention? topic).getD (listens h topic) && !closed h)) := by
  rw [listens, closed_concat, List.filterMap_append, listens]
  cases hmention : a.mention? topic with
  | none =>
      rw [List.filterMap_cons_none hmention, List.filterMap_nil, List.append_nil, Option.getD_none]
      cases closed h <;> cases a.closes <;> simp
  | some b =>
      rw [List.filterMap_cons_some hmention, List.filterMap_nil, List.getLast?_concat,
        Option.getD_some]
      cases closed h <;> cases a.closes <;> cases b <;> rfl

/-! ## Listeners by name -/

theorem listener?_handle (f : Feed) (name other : ListenerName) (frame : Frame) :
    (f.handle name frame).listener? other =
      (f.listener? other).map fun l => if other = name then l.handle frame else l :=
  Waiting.lookup_map (fun n (l : Listener) => if n = name then l.handle frame else l) f.listeners
    other

theorem listener?_leave (f : Feed) (name other : ListenerName) :
    (f.leave name).listener? other = if other = name then none else f.listener? other :=
  Waiting.lookup_filter_ne f.listeners name other

theorem listener?_join (f : Feed) (name other : ListenerName) (topics : List String) :
    (f.join name topics).listener? other =
      if other = name then some (topics.foldl Listener.start {}) else f.listener? other := by
  change ((f.leave name).listeners ++ [(name, topics.foldl Listener.start {})]).lookup other = _
  rw [List.lookup_append, Waiting.lookup_cons_ite, List.lookup_nil]
  change ((f.leave name).listener? other).or _ = _
  rw [listener?_leave]
  split
  · rfl
  · rw [Option.or_none]

/-- What is left to receive is handed over and is gone then. -/
theorem receive?_eq {f : Feed} {name : ListenerName} {l : Listener}
    (h : f.listener? name = some l) : ∃ f', f.receive? name = some (l.inbox, f') ∧
      ∀ other, f'.listener? other =
        (f.listener? other).map fun l => if other = name then { l with inbox := [] } else l := by
  rw [receive?, h]
  exact ⟨_, rfl, Waiting.lookup_map
    (fun n (l : Listener) => if n = name then { l with inbox := [] } else l) f.listeners⟩

/-- What somebody does is nothing to anybody else. -/
theorem listener?_doing (f : Feed) {name other : ListenerName} (hne : other ≠ name) (d : Doing) :
    (f.doing name d).listener? other = f.listener? other := by
  cases d with
  | joins topics => rw [doing, listener?_join, if_neg hne]
  | leaves => rw [doing, listener?_leave, if_neg hne]
  | sends frame =>
      rw [doing, listener?_handle]
      simp only [if_neg hne]
      exact Option.map_id'
  | receives =>
      rw [doing]
      cases hname : f.listener? name with
      | none =>
          rw [receive?, hname]
          rfl
      | some l =>
          obtain ⟨f', hreceive, hothers⟩ := receive?_eq hname
          rw [hreceive, Option.map_some, Option.getD_some, hothers]
          simp only [if_neg hne]
          exact Option.map_id'

/-! ## One client -/

/-- A message is answered, and the topics that it mentions are taken up or dropped. -/
theorem obey_spec {l : Listener} (hl : l.Tended) (message : ClientMessage) :
    (l.obey message).line = (l.connected, l.inbox ++ reply message) ∧ (l.obey message).Tended ∧
      ∀ topic, (l.obey message).holds topic =
        (message.mention? topic).getD (l.holds topic) := by
  cases message with
  | subscribe topics =>
      have hline := Listener.line_foldl Listener.line_take l topics
      refine ⟨?_, (hl.foldl_take topics).with_inbox _, fun topic => ?_⟩
      · exact congrArg (fun line => (line.1, line.2 ++ [.subscribed topics])) hline
      · refine (Listener.holds_foldl_take l topics topic).trans ?_
        rw [ClientMessage.mention?]
        by_cases h : topic ∈ topics <;> simp [h]
  | unsubscribe topics =>
      have hline := Listener.line_foldl Listener.line_drop l topics
      refine ⟨?_, hl.foldl_drop topics, fun topic => ?_⟩
      · rw [reply, List.append_nil]
        exact hline
      · refine (Listener.holds_foldl_drop l topics topic).trans ?_
        rw [ClientMessage.mention?]
        by_cases h : topic ∈ topics <;> simp [h]
  | ping => exact ⟨rfl, hl.with_inbox _, fun _ => rfl⟩

theorem handle_of_disconnected {l : Listener} (h : l.connected = false) (frame : Frame) :
    l.handle frame = l := by
  rw [Listener.handle.eq_def, if_neg (by rw [h]; exact Bool.false_ne_true)]

theorem handle_close {l : Listener} (h : l.connected = true) : l.handle .close = l.disconnect := by
  rw [Listener.handle.eq_def, if_pos h]

theorem handle_of_connected {l : Listener} (h : l.connected = true) {frame : Frame}
    (hclose : frame ≠ .close) : l.handle frame = frame.asks?.elim l l.obey := by
  rw [Listener.handle.eq_def, if_pos h]
  cases frame with
  | text s =>
      simp only [Frame.asks?]
      cases ClientMessage.decoder.ofString s <;> rfl
  | binary => rfl
  | close => exact absurd rfl hclose

/-- A client stands where its history has brought it. -/
structure Stands (s : Session) (h : List (Happening client)) (l : Listener) : Prop where
  listener : s.feed.listener? client = some l
  connected : l.connected = !closed h
  tended : l.Tended
  topics : ∀ topic, l.holds topic = listens h topic
  sent : s.received ++ l.inbox = transcript [] h

variable {s : Session} {h : List (Happening client)} {l : Listener}

theorem listens_of_closed (hclosed : closed h = true) (topic : String) :
    listens h topic = false := by
  rw [listens, hclosed]
  rfl

theorem Stands.handled (hs : Stands s h l) (frame : Frame) :
    (s.feed.handle client frame).listener? client = some (l.handle frame) := by
  rw [listener?_handle, hs.listener, Option.map_some, if_pos rfl]

/-- After the end of the connection nothing is made of a frame. -/
theorem Stands.frame_of_closed (hs : Stands s h l) (hclosed : closed h = true) (frame : Frame) :
    Stands (s.step (.frame frame : Happening client)) (h ++ [.frame frame]) (l.handle frame) := by
  have hsame : l.handle frame = l :=
    handle_of_disconnected (by rw [hs.connected, hclosed, Bool.not_true]) frame
  refine ⟨hs.handled frame, ?_, ?_, fun topic => ?_, ?_⟩
  · rw [hsame, hs.connected, closed_concat, hclosed, Bool.true_or]
  · rw [hsame]
    exact hs.tended
  · rw [hsame, hs.topics, listens_of_closed hclosed, listens_concat, hclosed, Bool.not_true,
      Bool.and_false, Bool.and_false]
  · rw [hsame, transcript_concat, answer, hclosed, if_pos rfl, List.append_nil]
    exact hs.sent

/-- With the connection all its tasks end. -/
theorem Stands.frame_close (hs : Stands s h l) (hopen : closed h = false) :
    Stands (s.step (.frame .close : Happening client)) (h ++ [.frame .close])
      (l.handle .close) := by
  have hleft : l.handle .close = l.disconnect :=
    handle_close (by rw [hs.connected, hopen, Bool.not_false])
  refine ⟨hs.handled .close, ?_, ?_, fun topic => ?_, ?_⟩
  · rw [hleft, closed_concat, Happening.closes, Bool.or_true]
    rfl
  · rw [hleft]
    exact .of_nil hs.tended.forwarders_disconnect rfl
  · rw [hleft, listens_concat, Happening.closes, Bool.not_true, Bool.false_and]
    rfl
  · rw [hleft, transcript_concat, answer, hopen]
    exact hs.sent.trans (List.append_nil _).symm

/-- What a frame asks for is done, and if it asks for nothing then nothing is done. -/
theorem Stands.frame_of_open (hs : Stands s h l) (hopen : closed h = false) {frame : Frame}
    (hclose : frame ≠ .close) :
    Stands (s.step (.frame frame : Happening client)) (h ++ [.frame frame]) (l.handle frame) := by
  have hcloses : (Happening.frame frame : Happening client).closes = false := by
    cases frame with
    | close => exact absurd rfl hclose
    | _ => rfl
  have hconnected : l.connected = true := by rw [hs.connected, hopen, Bool.not_false]
  have hhandle := handle_of_connected hconnected hclose
  have hanswer : answer h (.frame frame : Happening client) = frame.asks?.elim [] reply := by
    rw [answer, hopen, if_neg Bool.false_ne_true]
  have hlistens : ∀ topic, listens (h ++ [(.frame frame : Happening client)]) topic =
      (frame.asks?.bind (ClientMessage.mention? topic)).getD (l.holds topic) := by
    intro topic
    rw [listens_concat, hcloses, hopen, Bool.not_false, Bool.true_and, Bool.and_true, hs.topics]
    rfl
  cases hasks : frame.asks? with
  | none =>
      rw [hasks, Option.elim_none] at hhandle hanswer
      refine ⟨hs.handled frame, ?_, ?_, fun topic => ?_, ?_⟩
      · rw [hhandle, closed_concat_of_not hcloses, hs.connected]
      · rw [hhandle]
        exact hs.tended
      · rw [hhandle, hlistens, hasks, Option.bind_none, Option.getD_none]
      · rw [hhandle, transcript_concat, hanswer, List.append_nil]
        exact hs.sent
  | some message =>
      rw [hasks, Option.elim_some] at hhandle hanswer
      obtain ⟨hline, htended, htopics⟩ := obey_spec hs.tended message
      refine ⟨hs.handled frame, ?_, ?_, fun topic => ?_, ?_⟩
      · rw [hhandle, closed_concat_of_not hcloses, ← hs.connected]
        exact congrArg Prod.fst hline
      · rw [hhandle]
        exact htended
      · rw [hhandle, hlistens, hasks, Option.bind_some, htopics]
      · have hinbox : (l.obey message).inbox = l.inbox ++ reply message := congrArg Prod.snd hline
        rw [hhandle, transcript_concat, hanswer, ← hs.sent, hinbox, List.append_assoc]
        rfl

theorem Stands.frame (hs : Stands s h l) (frame : Frame) :
    Stands (s.step (.frame frame : Happening client)) (h ++ [.frame frame]) (l.handle frame) := by
  cases hclosed : closed h with
  | true => exact hs.frame_of_closed hclosed frame
  | false =>
      by_cases hclose : frame = .close
      · subst hclose
        exact hs.frame_close hclosed
      · exact hs.frame_of_open hclosed hclose

/-- What is not a frame of the client neither ends the connection nor mentions a topic. -/
theorem listens_concat_of_none {a : Happening client} (hcloses : a.closes = false)
    (hmention : ∀ topic, a.mention? topic = none) (topic : String) :
    listens (h ++ [a]) topic = listens h topic := by
  rw [listens_concat, hcloses, hmention, Option.getD_none, listens]
  cases closed h <;> simp

/-- So a client that it leaves connected, with the same tasks and handles, stands where it
should. -/
theorem Stands.aside (hs : Stands s h l) {a : Happening client} {messages : List ServerMessage}
    (hcloses : a.closes = false) (hmention : ∀ topic, a.mention? topic = none)
    (hlistener : (s.step a).feed.listener? client = some { l with inbox := messages })
    (hsent : (s.step a).received ++ messages = s.received ++ l.inbox ++ answer h a) :
    Stands (s.step a) (h ++ [a]) { l with inbox := messages } where
  listener := hlistener
  connected := by rw [closed_concat_of_not hcloses, ← hs.connected]
  tended := hs.tended.with_inbox messages
  topics topic := (hs.topics topic).trans (listens_concat_of_none hcloses hmention topic).symm
  sent := by rw [hsent, hs.sent, transcript_concat]

/-- The client is sent what is published if it listens to the topic: there is a task for the topic
then, and only one. -/
theorem Stands.published (hs : Stands s h l) (topic : String) (payload : Json) :
    ∃ l', Stands (s.step (.published topic payload : Happening client))
      (h ++ [.published topic payload]) l' := by
  have hconnected : l.holds topic = true → l.connected = true := by
    intro hheld
    rw [hs.topics, listens, Bool.and_eq_true] at hheld
    exact hs.connected.trans hheld.1
  have hhear : l.hear topic payload = { l with
      inbox := l.inbox ++ answer h (.published topic payload : Happening client) } := by
    rw [hs.tended.hear hconnected, hs.topics, answer]
    split
    · rfl
    · rw [List.append_nil]
  refine ⟨_, hs.aside rfl (fun _ => rfl) ?_ (List.append_assoc ..).symm⟩
  change (s.feed.publish topic payload).2.listener? client = _
  rw [listener?_publish, hs.listener, Option.map_some, hhear]

theorem Stands.delivered (hs : Stands s h l) :
    Stands (s.step (.delivered : Happening client)) (h ++ [.delivered]) { l with inbox := [] } := by
  obtain ⟨f', hreceive, hothers⟩ := receive?_eq hs.listener
  have hstep : s.step (.delivered : Happening client) = ⟨f', s.received ++ l.inbox⟩ := by
    rw [Session.step, hreceive]
  refine hs.aside rfl (fun _ => rfl) ?_ ?_
  · rw [hstep, hothers, hs.listener, Option.map_some, if_pos rfl]
  · rw [hstep, answer]

theorem Stands.elsewhere (hs : Stands s h l) (other : ListenerName) (hne : other ≠ client)
    (d : Doing) :
    Stands (s.step (.elsewhere other hne d)) (h ++ [.elsewhere other hne d]) l := by
  refine hs.aside rfl (fun _ => rfl) ?_ (List.append_nil _).symm
  exact (listener?_doing s.feed (Ne.symm hne) d).trans hs.listener

/-- One step takes a client to where its history brings it. -/
theorem Stands.step (hs : Stands s h l) (a : Happening client) :
    ∃ l', Stands (s.step a) (h ++ [a]) l' := by
  cases a with
  | frame frame => exact ⟨_, hs.frame frame⟩
  | published topic payload => exact hs.published topic payload
  | delivered => exact ⟨_, hs.delivered⟩
  | elsewhere other hne d => exact ⟨_, hs.elsewhere other hne d⟩

theorem Session.after_concat (s : Session) (h : List (Happening client)) (a : Happening client) :
    s.after (h ++ [a]) = (s.after h).step a :=
  List.foldl_concat ..

theorem stands (f : Feed) (h : List (Happening client)) :
    ∃ l, Stands ((Session.opened f client).after h) h l := by
  induction h using List.reverseRecOn with
  | nil =>
      refine ⟨{}, ?_, rfl, .of_nil rfl rfl, fun _ => rfl, rfl⟩
      exact (listener?_join f client client []).trans (if_pos rfl)
  | append_singleton h a ih =>
      obtain ⟨l, hs⟩ := ih
      rw [Session.after_concat]
      exact hs.step a

/-! ## Frames that say nothing -/

/-- All topics that somebody is subscribed to have been opened. -/
def Known (f : Feed) : Prop :=
  ∀ n l, (n, l) ∈ f.listeners → ∀ topic ∈ l.forwarders.map Forwarder.topic, topic ∈ f.opened

theorem mem_opening (f : Feed) (topics : List String) (topic : String) :
    topic ∈ (f.opening topics).opened ↔ topic ∈ f.opened ∨ topic ∈ topics := by
  change topic ∈ topics.foldl _ f.opened ↔ _
  generalize f.opened = known
  induction topics generalizing known with
  | nil => simp
  | cons first rest ih =>
      rw [List.foldl_cons, ih]
      split
      next h => grind
      next => simp [or_assoc]

theorem opening_of_known {f : Feed} {topics : List String} (h : ∀ t ∈ topics, t ∈ f.opened) :
    f.opening topics = f := by
  have hfold : ∀ {topics : List String}, (∀ t ∈ topics, t ∈ f.opened) →
      topics.foldl (fun ts t => if t ∈ ts then ts else ts ++ [t]) f.opened = f.opened := by
    intro topics h
    induction topics with
    | nil => rfl
    | cons first rest ih =>
        rw [List.foldl_cons, if_pos (h first List.mem_cons_self)]
        exact ih fun t ht => h t (List.mem_cons_of_mem _ ht)
  rw [opening, hfold h]

theorem known_handle (f : Feed) (name : ListenerName) (frame : Frame) :
    (f.handle name frame).Known := by
  intro n l hl topic htopic
  exact (mem_opening f _ topic).mpr (.inr (List.mem_flatMap.mpr ⟨(n, l), hl, htopic⟩))

theorem Known.publish {f : Feed} (hf : f.Known) (topic : String) (payload : Json) :
    (f.publish topic payload).2.Known := by
  intro n l hl t ht
  obtain ⟨⟨n', l'⟩, hl', heq⟩ := List.mem_map.mp hl
  cases heq
  refine (mem_opening f [topic] t).mpr (.inl (hf n l' hl' t ?_))
  rw [Listener.hear] at ht
  split at ht
  next => exact ht
  next => exact (List.filter_sublist.map _).subset ht

theorem Known.leave {f : Feed} (hf : f.Known) (name : ListenerName) : (f.leave name).Known :=
  fun n l hl => hf n l (List.mem_of_mem_filter hl)

theorem topics_foldl_start (l : Listener) (topics : List String) :
    (topics.foldl Listener.start l).forwarders.map Forwarder.topic =
      l.forwarders.map Forwarder.topic ++ topics := by
  induction topics generalizing l with
  | nil => exact (List.append_nil _).symm
  | cons first rest ih =>
      rw [List.foldl_cons, ih, Listener.start, List.map_append, List.append_assoc]
      rfl

theorem Known.join {f : Feed} (hf : f.Known) (name : ListenerName) (topics : List String) :
    (f.join name topics).Known := by
  intro n l hl t ht
  refine (mem_opening (f.leave name) topics t).mpr ?_
  rcases List.mem_append.mp hl with hl | hl
  · exact .inl (hf.leave name n l hl t ht)
  · cases List.mem_singleton.mp hl
    rw [topics_foldl_start] at ht
    exact .inr ht

theorem Known.receive {f f' : Feed} (hf : f.Known) {name : ListenerName}
    {messages : List ServerMessage} (h : f.receive? name = some (messages, f')) : f'.Known := by
  obtain ⟨l, -, heq⟩ := Option.map_eq_some_iff.mp h
  cases heq
  intro n l hl t ht
  obtain ⟨⟨n', l'⟩, hl', heq⟩ := List.mem_map.mp hl
  cases heq
  refine hf n l' hl' t ?_
  split at ht <;> exact ht

theorem Known.doing {f : Feed} (hf : f.Known) (name : ListenerName) (d : Doing) :
    (f.doing name d).Known := by
  cases d with
  | joins topics => exact hf.join name topics
  | leaves => exact hf.leave name
  | sends frame => exact known_handle f name frame
  | receives =>
      rw [Feed.doing]
      cases hreceive : f.receive? name with
      | none => exact hf
      | some handed => exact hf.receive hreceive

theorem Known.step {s : Session} (hs : s.feed.Known) (a : Happening client) :
    (s.step a).feed.Known := by
  cases a with
  | frame frame => exact known_handle s.feed client frame
  | published topic payload => exact hs.publish topic payload
  | delivered =>
      rw [Session.step]
      split
      next hreceive => exact hs.receive hreceive
      next => exact hs
  | elsewhere other hne d => exact hs.doing other d

theorem Known.after {f : Feed} (hf : f.Known) (h : List (Happening client)) :
    ((Session.opened f client).after h).feed.Known := by
  induction h using List.reverseRecOn with
  | nil => exact hf.join client []
  | append_singleton h a ih =>
      rw [Session.after_concat]
      exact ih.step a

/-- A feed that comes about. -/
inductive Reached : Feed → Prop
  | empty : Reached {}
  | doing {f : Feed} (name : ListenerName) (d : Doing) : Reached f → Reached (f.doing name d)
  | published {f : Feed} (topic : String) (payload : Json) : Reached f →
      Reached (f.publish topic payload).2

theorem Reached.known {f : Feed} (h : f.Reached) : f.Known := by
  induction h with
  | empty => exact fun n l hl => absurd hl List.not_mem_nil
  | doing name d _ ih => exact ih.doing name d
  | published topic payload _ ih => exact ih.publish topic payload

/-- A frame from which nothing can be read changes nothing. -/
theorem handle_of_asks_none {f : Feed} (hf : f.Known) (name : ListenerName) {frame : Frame}
    (hasks : frame.asks? = none) (hclose : frame ≠ .close) : f.handle name frame = f := by
  have hsame : ∀ l : Listener, l.handle frame = l := by
    intro l
    cases hconnected : l.connected with
    | false => exact handle_of_disconnected hconnected frame
    | true => rw [handle_of_connected hconnected hclose, hasks, Option.elim_none]
  rw [handle]
  simp only [hsame, ite_self, List.map_id']
  rw [opening_of_known]
  intro t ht
  obtain ⟨⟨n, l⟩, hl, ht⟩ := List.mem_flatMap.mp ht
  exact hf n l hl t ht

/-! ## Everybody else -/

/-- Two feeds look the same to everybody but one client. -/
def SameBut (client : ListenerName) (f f' : Feed) : Prop :=
  ∀ other, other ≠ client → f.listener? other = f'.listener? other

theorem sameBut_handle (f : Feed) (frame : Frame) : SameBut client (f.handle client frame) f :=
  fun _ hne => listener?_doing f hne (.sends frame)

theorem SameBut.doing {f f' : Feed} (hf : SameBut client f f') {name : ListenerName}
    (hname : name ≠ client) (d : Doing) : SameBut client (f.doing name d) (f'.doing name d) := by
  intro other hne
  by_cases hother : other = name
  · subst hother
    have hsame := hf other hne
    rw [Feed.doing.eq_def, Feed.doing.eq_def]
    cases d with
    | joins topics => simp only [listener?_join, if_true]
    | leaves => simp only [listener?_leave, if_true]
    | sends frame => simp only [listener?_handle, hsame]
    | receives =>
        change ((f.receive? other).map Prod.snd |>.getD f).listener? other =
          ((f'.receive? other).map Prod.snd |>.getD f').listener? other
        cases hl : f.listener? other with
        | none =>
            have hl' := hsame.symm.trans hl
            rw [receive?, receive?, hl, hl']
            exact hsame
        | some l =>
            obtain ⟨g, hreceive, hg⟩ := receive?_eq hl
            obtain ⟨g', hreceive', hg'⟩ := receive?_eq (hsame.symm.trans hl)
            rw [hreceive, hreceive']
            exact (hg other).trans ((congrArg _ hsame).trans (hg' other).symm)
  · rw [listener?_doing f hother, listener?_doing f' hother]
    exact hf other hne

theorem SameBut.step {s s' : Session} (hs : SameBut client s.feed s'.feed)
    (a : Happening client) : SameBut client (s.step a).feed (s'.step a).feed := by
  have hreceived : ∀ s : Session,
      SameBut client (s.step (.delivered : Happening client)).feed s.feed := by
    intro s other hne
    have hdoing := listener?_doing s.feed hne .receives
    rw [Feed.doing] at hdoing
    rw [Session.step]
    split
    next hreceive =>
      rw [hreceive] at hdoing
      exact hdoing
    next => rfl
  cases a with
  | frame frame =>
      exact fun other hne => (sameBut_handle s.feed frame other hne).trans
        ((hs other hne).trans (sameBut_handle s'.feed frame other hne).symm)
  | published topic payload =>
      intro other hne
      change (s.feed.publish topic payload).2.listener? other =
        (s'.feed.publish topic payload).2.listener? other
      rw [listener?_publish, listener?_publish, hs other hne]
  | delivered =>
      exact fun other hne => (hreceived s other hne).trans
        ((hs other hne).trans (hreceived s' other hne).symm)
  | elsewhere other hne d => exact hs.doing hne d

/-- Without the frames of the client everybody else stands as with them. -/
theorem sameBut_after (f : Feed) (h : List (Happening client)) :
    SameBut client ((Session.opened f client).after h).feed
      ((Session.opened f client).after (h.filter fun a => !a.own)).feed := by
  induction h using List.reverseRecOn with
  | nil => exact fun _ _ => rfl
  | append_singleton h a ih =>
      rw [Session.after_concat, List.filter_append]
      cases a with
      | frame frame =>
          rw [List.filter_cons_of_neg (by simp [Happening.own]), List.filter_nil, List.append_nil]
          exact fun other hne => (sameBut_handle _ frame other hne).trans (ih other hne)
      | published | delivered | elsewhere =>
          rw [List.filter_cons_of_pos (by simp [Happening.own]), List.filter_nil,
            Session.after_concat]
          exact ih.step _

/-! ## All together -/

theorem Stands.sent_eq (hs : Stands s h l) : s.sent client = transcript [] h := by
  rw [Session.sent, hs.listener]
  exact hs.sent

/-- After the end of the connection nothing is sent. -/
theorem transcript_of_closed {h : List (Happening client)} (hclosed : closed h = true)
    (later : List (Happening client)) : transcript h later = [] := by
  induction later generalizing h with
  | nil => rfl
  | cons a later ih =>
      have hanswer : answer h a = [] := by
        cases a with
        | frame frame => rw [answer, if_pos hclosed]
        | published topic payload =>
            rw [answer, listens_of_closed hclosed, if_neg Bool.false_ne_true]
        | delivered => rfl
        | elsewhere => rfl
      rw [transcript, hanswer, List.nil_append, ih]
      rw [closed_concat, hclosed, Bool.true_or]

/-- For each topic that a client listens to one task runs, and for no other. -/
theorem Stands.length_running (hs : Stands s h l) (topic : String) :
    (l.running topic).length = if listens h topic then 1 else 0 := by
  rw [hs.tended.running, ← hs.topics, Listener.holds]
  cases l.handles.lookup topic <;> rfl

/-- A client is served as its own frames and the publications demand. -/
structure Serves (f : Feed) (client : ListenerName) : Prop where
  /-- A text asks for something if the client has written it in one of the two forms. -/
  understood : ∀ (text : String) (m : ClientMessage), (Frame.text text).asks? = some m ↔
    ∃ node, Document.Spells (Document.spelled text.toList) node ∧ m.Written node
  /-- The text of a message asks for what the message does. -/
  written : ∀ m : ClientMessage, (Frame.text m.toJson.render).asks? = some m
  /-- No two messages to it are written in the same way. -/
  legible : ∀ m m' : ServerMessage, m.toJson = m'.toJson → m = m'
  /-- For each topic that it listens to one task runs, and for no other. -/
  tasks : ∀ h : List (Happening client), ∃ l,
    ((Session.opened f client).after h).feed.listener? client = some l ∧
      ∀ topic, (l.running topic).length = if listens h topic then 1 else 0
  /-- It is sent what is due to it, each message once and in order. -/
  sent : ∀ h : List (Happening client),
    ((Session.opened f client).after h).sent client = transcript [] h
  /-- What it is sent reaches it. -/
  received : ∀ h : List (Happening client),
    ((Session.opened f client).after (h ++ [.delivered])).received = transcript [] h
  /-- After the end of the connection nothing is sent. -/
  closed : ∀ h later : List (Happening client), closed h = true →
    ((Session.opened f client).after (h ++ later)).sent client =
      ((Session.opened f client).after h).sent client
  /-- A frame from which nothing can be read changes nothing. -/
  passed_over : f.Reached → ∀ (h : List (Happening client)) (frame : Frame),
    frame.asks? = none → frame ≠ .close →
    (Session.opened f client).after (h ++ [.frame frame]) = (Session.opened f client).after h
  /-- For everybody else it makes no difference what the client sends. -/
  others : ∀ (h : List (Happening client)) (other : ListenerName), other ≠ client →
    ((Session.opened f client).after h).feed.listener? other =
      ((Session.opened f client).after (h.filter fun a => !a.own)).feed.listener? other

/-- Whatever the feed and whatever happens, every client is served as its frames demand. -/
theorem serves (f : Feed) (client : ListenerName) : f.Serves client := by
  refine ⟨fun _ _ => Frame.asks?_text, Frame.asks?_render,
    fun _ _ => ServerMessage.eq_of_toJson_eq, fun h => ?_, fun h => ?_, fun h => ?_,
    fun h later hclosed => ?_, fun hf h frame hasks hclose => ?_, sameBut_after f⟩
  · obtain ⟨l, hs⟩ := stands f h
    exact ⟨l, hs.listener, hs.length_running⟩
  · obtain ⟨l, hs⟩ := stands f h
    exact hs.sent_eq
  · obtain ⟨l, hs⟩ := stands f h
    have hdelivered := hs.delivered.sent
    rw [List.append_nil] at hdelivered
    rw [Session.after_concat, hdelivered, transcript_concat, answer, List.append_nil]
  · obtain ⟨l, hs⟩ := stands f h
    obtain ⟨l', hs'⟩ := stands f (h ++ later)
    rw [hs.sent_eq, hs'.sent_eq, transcript_append, List.nil_append,
      transcript_of_closed hclosed, List.append_nil]
  · rw [Session.after_concat, Session.step,
      handle_of_asks_none (hf.known.after h) client hasks hclose]

end Feed

end KeyedLedger
