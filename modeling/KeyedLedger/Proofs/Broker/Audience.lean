import KeyedLedger.Proofs.Broker.Reading
import Mathlib.Data.List.Perm.Basic
import Mathlib.Logic.Function.Basic

/-! # What subscribers are told

Subscribers come and go and read, events are published, and the record is cleared, in any order. What
a subscriber has been told is kept with the place in its list of topics that each item has been read
from. It is fed if in each place this, followed by what it can still read there, is what has been
published on the topic since it subscribed. Nothing that is done starves a subscriber as long as its
queues have room.
-/

namespace KeyedLedger

namespace Broker

variable {κ : Type} [DecidableEq κ]

/-! ## Histories -/

/-- What may be done with a broker. -/
inductive Act (κ : Type) where
  | subscribe (name : κ) (topics : List String)
  | unsubscribe (name : κ)
  | publish (topic : String) (event : Event)
  /-- A subscriber reads the next item of one of its queues, -/
  | read (name : κ) (place : Nat)
  /-- or all that waits for it. -/
  | receive (name : κ)
  | clear

namespace Act

/-- A subscription of some name is made or dropped. -/
def renews (name : κ) : Act κ → Bool
  | subscribe other _ => other = name
  | unsubscribe other => other = name
  | _ => false

/-- The record is cleared. -/
def isClear : Act κ → Bool
  | clear => true
  | _ => false

/-- The topics of the subscription that is made. -/
def topics? : Act κ → Option (List String)
  | subscribe _ topics => some topics
  | _ => none

/-- The event that is published, if it is one of a topic. -/
def eventOn? (topic : String) : Act κ → Option Event
  | publish other event => if other = topic then some event else none
  | _ => none

end Act

/-- What has been done with a broker, in order. -/
abbrev History (κ : Type) : Type :=
  List (Act κ)

namespace History

/-- What has been done after the last act of some kind. -/
def sinceLast (h : History κ) (kind : Act κ → Bool) : History κ :=
  (h.reverse.takeWhile fun a => !kind a).reverse

/-- The topics of the subscription of some name, unless none is there. -/
def topics? (h : History κ) (name : κ) : Option (List String) :=
  (h.reverse.find? (Act.renews name)).bind Act.topics?

/-- The events that are published on a topic. -/
def publishedTo (h : History κ) (topic : String) : List Event :=
  h.filterMap (Act.eventOn? topic)

/-- The events that are published on a topic while the subscription of some name is there. -/
def offered (h : History κ) (name : κ) (topic : String) : List Event :=
  (h.sinceLast (Act.renews name)).publishedTo topic

variable (h : History κ) (a : Act κ)

omit [DecidableEq κ] in
theorem sinceLast_concat (kind : Act κ → Bool) : sinceLast (h ++ [a]) kind =
    if kind a then [] else sinceLast h kind ++ [a] := by
  rw [sinceLast, List.reverse_concat, List.takeWhile_cons]
  cases kind a with
  | true => rfl
  | false => exact List.reverse_cons

theorem topics?_concat (name : κ) : topics? (h ++ [a]) name =
    if a.renews name then a.topics? else topics? h name := by
  rw [topics?, List.reverse_concat, List.find?_cons]
  cases a.renews name <;> rfl

omit [DecidableEq κ] in
theorem publishedTo_concat (topic : String) : publishedTo (h ++ [a]) topic =
    publishedTo h topic ++ (a.eventOn? topic).toList := by
  rw [publishedTo, List.filterMap_append]
  cases hevent : a.eventOn? topic with
  | none => rw [List.filterMap_cons_none hevent]; rfl
  | some e => rw [List.filterMap_cons_some hevent]; rfl

theorem offered_concat (name : κ) (topic : String) : offered (h ++ [a]) name topic =
    if a.renews name then [] else offered h name topic ++ (a.eventOn? topic).toList := by
  rw [offered, sinceLast_concat]
  cases a.renews name with
  | true => rfl
  | false => exact publishedTo_concat _ a topic

end History

/-! ## Subscribers -/

/-- A broker with what its subscribers have been told, each item with the place in the list of
topics that it has been read from. -/
structure Audience (κ : Type) where
  broker : Broker κ
  told : κ → List (Nat × Except BrokerError Event) := fun _ => []

namespace Audience

/-- All that waits in some queues, with the places of the queues. -/
def placed (queues : List Queue) : List (Nat × Except BrokerError Event) :=
  queues.zipIdx.flatMap fun (q, place) => q.contents.map fun item => (place, item)

/-- The audience once something has been done. A new subscriber has not been told anything. -/
def perform (s : Audience κ) : Act κ → Audience κ
  | .subscribe name topics => ⟨s.broker.subscribe name topics, Function.update s.told name []⟩
  | .unsubscribe name => ⟨s.broker.unsubscribe name, Function.update s.told name []⟩
  | .publish topic event => { s with broker := (s.broker.publish topic event).2 }
  | .read name place =>
    match s.broker.read? name place with
    | some (item, broker) =>
      ⟨broker, Function.update s.told name (s.told name ++ [(place, item)])⟩
    | none => s
  | .receive name =>
    match s.broker.queues? name, s.broker.receive? name with
    | some queues, some (_, broker) =>
      ⟨broker, Function.update s.told name (s.told name ++ placed queues)⟩
    | _, _ => s
  | .clear => { s with broker := s.broker.clear }

/-- The audience of a broker that has room for a number of events in each queue, once something has
been done. -/
def after (capacity : Nat) (h : History κ) : Audience κ :=
  h.foldl perform { broker := { capacity := capacity } }

/-- The items that belong to a place. -/
def inPlace (told : List (Nat × Except BrokerError Event)) (place : Nat) :
    List (Except BrokerError Event) :=
  told.filterMap fun entry => if entry.1 = place then some entry.2 else none

/-- What a subscriber can still read in a place. -/
def unreadIn (s : Audience κ) (name : κ) (place : Nat) : List (Except BrokerError Event) :=
  ((s.broker.queues? name).bind fun queues => queues[place]?).elim [] Queue.contents

/-- What a subscriber can still receive. -/
def unread (s : Audience κ) (name : κ) : List (Except BrokerError Event) :=
  (s.broker.receive? name).elim [] Prod.fst

/-! ## One subscriber -/

variable {told : List (Nat × Except BrokerError Event)} {topics : List String}
  {offered offered' : String → List Event} {queues : List Queue} {place : Nat} {q q' : Queue}
  {item : Except BrokerError Event}

theorem inPlace_append (told later : List (Nat × Except BrokerError Event)) (place : Nat) :
    inPlace (told ++ later) place = inPlace told place ++ inPlace later place :=
  List.filterMap_append

theorem inPlace_singleton (place other : Nat) (item : Except BrokerError Event) :
    inPlace [(place, item)] other = if place = other then [item] else [] := by
  rw [inPlace, List.filterMap_cons, List.filterMap_nil]
  split <;> simp_all

theorem inPlace_map (items : List (Except BrokerError Event)) (place other : Nat) :
    inPlace (items.map fun item => (place, item)) other = if place = other then items else [] := by
  rw [inPlace, List.filterMap_map]
  by_cases h : place = other
  · rw [if_pos h]
    exact (List.filterMap_congr fun _ _ => if_pos h).trans List.filterMap_some
  · rw [if_neg h]
    exact List.filterMap_eq_nil_iff.mpr fun _ _ => if_neg h

theorem inPlace_flatMap_zipIdx (queues : List Queue) (first place : Nat) :
    inPlace ((queues.zipIdx first).flatMap fun (q, i) => q.contents.map fun item => (i, item))
      place = if first ≤ place then (queues[place - first]?).elim [] Queue.contents else [] := by
  induction queues generalizing first with
  | nil => split <;> rfl
  | cons q rest ih =>
      rw [List.zipIdx_cons, List.flatMap_cons, inPlace_append, inPlace_map, ih]
      rcases Nat.lt_trichotomy first place with hlt | rfl | hgt
      · have hnext : place - first = place - (first + 1) + 1 := by omega
        rw [if_neg (Nat.ne_of_lt hlt), if_pos (Nat.succ_le_of_lt hlt), if_pos (Nat.le_of_lt hlt),
          hnext]
        rfl
      · rw [if_pos rfl, if_neg (Nat.not_succ_le_self first), if_pos (Nat.le_refl first),
          Nat.sub_self, List.append_nil]
        rfl
      · rw [if_neg (Nat.ne_of_gt hgt), if_neg (by omega), if_neg (by omega)]
        rfl

/-- What waits in a queue belongs to its place. -/
theorem inPlace_placed (queues : List Queue) (place : Nat) :
    inPlace (placed queues) place = (queues[place]?).elim [] Queue.contents := by
  rw [placed, inPlace_flatMap_zipIdx, if_pos (Nat.zero_le place), Nat.sub_zero]

theorem lt_of_mem_placed {queues : List Queue} {entry : Nat × Except BrokerError Event}
    (h : entry ∈ placed queues) : entry.1 < queues.length := by
  obtain ⟨⟨q, place⟩, hmem, hentry⟩ := List.mem_flatMap.mp h
  obtain ⟨item, -, rfl⟩ := List.mem_map.mp hentry
  exact List.snd_lt_of_mem_zipIdx hmem

/-- Apart from the places, it is all that waits. -/
theorem map_snd_placed (queues : List Queue) :
    (placed queues).map Prod.snd = queues.flatMap Queue.contents := by
  calc (placed queues).map Prod.snd = queues.zipIdx.flatMap fun entry => entry.1.contents := by
        simp [placed, List.map_flatMap, Function.comp_def]
    _ = (queues.zipIdx.map Prod.fst).flatMap Queue.contents := (List.flatMap_map _ _ _).symm
    _ = queues.flatMap Queue.contents := by rw [List.zipIdx_map_fst]

theorem flatMap_range_singleton {place n : Nat} (h : place < n)
    (item : Except BrokerError Event) :
    (List.range n).flatMap (fun other => if place = other then [item] else []) = [item] := by
  induction n with
  | zero => exact absurd h (Nat.not_lt_zero place)
  | succ n ih =>
      rw [List.range_succ, List.flatMap_append, List.flatMap_singleton]
      rcases Nat.lt_succ_iff_lt_or_eq.mp h with hlt | rfl
      · rw [ih hlt, if_neg (Nat.ne_of_lt hlt), List.append_nil]
      · rw [if_pos rfl, List.flatMap_eq_nil_iff.mpr fun other hother => ?_, List.nil_append]
        exact if_neg (Nat.ne_of_gt (List.mem_range.mp hother))

/-- What has been told is what has been told in each of the places. -/
theorem perm_inPlace {n : Nat} (h : ∀ entry ∈ told, entry.1 < n) :
    (told.map Prod.snd).Perm ((List.range n).flatMap (inPlace told)) := by
  induction told with
  | nil =>
      have hnone : (List.range n).flatMap (inPlace []) = [] :=
        List.flatMap_eq_nil_iff.mpr fun _ _ => rfl
      exact .of_eq hnone.symm
  | cons entry rest ih =>
      rw [List.forall_mem_cons] at h
      have hsplit : inPlace (entry :: rest) = fun other =>
          (if entry.1 = other then [entry.2] else []) ++ inPlace rest other := by
        funext other
        rw [← inPlace_singleton]
        exact inPlace_append [entry] rest other
      rw [hsplit]
      refine .trans ?_ (List.flatMap_append_perm _ _ _)
      rw [flatMap_range_singleton h.1]
      exact (ih h.2).cons entry.2

/-- A subscriber with some topics has been told, or can still read, in the place of each of them the
events that have been offered on it. -/
structure Fed (told : List (Nat × Except BrokerError Event)) (topics : List String)
    (offered : String → List Event) (queues : List Queue) : Prop where
  topics : queues.map Queue.topic = topics
  lost : ∀ q ∈ queues, q.lost = 0
  places : ∀ entry ∈ told, entry.1 < queues.length
  stream : ∀ {place q}, queues[place]? = some q →
    inPlace told place ++ q.contents = (offered q.topic).map .ok

namespace Fed

/-- A new subscriber has been told nothing. -/
theorem fresh (topics : List String) :
    Fed [] topics (fun _ => []) (topics.map fun t => { topic := t }) where
  topics := by simp [Function.comp_def]
  lost q hq := by
    obtain ⟨topic, -, rfl⟩ := List.mem_map.mp hq
    rfl
  places := nofun
  stream hq := by
    rw [List.getElem?_map] at hq
    obtain ⟨topic, -, rfl⟩ := Option.map_eq_some_iff.mp hq
    rfl

/-- Another event waits in the place of each topic that it is published on, if there is room. -/
theorem publish (h : Fed told topics offered queues) {topic : String} {capacity : Nat} (e : Event)
    (hroom : ∀ {place q}, queues[place]? = some q → q.topic = topic →
      (offered topic).length < (inPlace told place).length + capacity) (number : Nat) :
    Fed told topics (fun t => offered t ++ if topic = t then [e] else [])
      (queues.map (Queue.push capacity topic ⟨number, e⟩)) := by
  have hpush : ∀ {place : Nat} {q : Queue}, queues[place]? = some q →
      (q.push capacity topic ⟨number, e⟩).lost = 0 ∧
        (q.push capacity topic ⟨number, e⟩).contents =
          q.contents ++ (if topic = q.topic then [e] else []).map .ok := by
    intro place q hq
    have hlost := h.lost q (List.mem_of_getElem? hq)
    refine Queue.contents_push hlost (fun htopic => ?_) ⟨number, e⟩
    have hlength := congrArg List.length (h.stream hq)
    rw [List.length_append, List.length_map, Queue.contents_of_lost_eq_zero hlost, List.length_map,
      htopic] at hlength
    have hfits := hroom hq htopic
    omega
  refine ⟨?_, ?_, ?_, ?_⟩
  · rw [List.map_map, ← h.topics]
    exact List.map_congr_left fun q _ => Queue.topic_push capacity topic _ q
  · intro q hq
    obtain ⟨old, hold, rfl⟩ := List.mem_map.mp hq
    obtain ⟨place, hplace⟩ := List.mem_iff_getElem?.mp hold
    exact (hpush hplace).1
  · rw [List.length_map]
    exact h.places
  · intro place q hq
    rw [List.getElem?_map] at hq
    obtain ⟨old, hold, rfl⟩ := Option.map_eq_some_iff.mp hq
    rw [(hpush hold).2, Queue.topic_push, ← List.append_assoc, h.stream hold, List.map_append]

/-- What is read from a queue has been told in its place. -/
theorem read (h : Fed told topics offered queues) (hq : queues[place]? = some q)
    (hread : q.read? = some (item, q')) :
    Fed (told ++ [(place, item)]) topics offered (queues.set place q') := by
  obtain ⟨hcontents, htopic, hlost⟩ := Queue.contents_of_read? hread
  have hplace := (List.getElem?_eq_some_iff.mp hq).1
  refine ⟨?_, ?_, ?_, ?_⟩
  · obtain ⟨hlength, rfl⟩ := List.getElem?_eq_some_iff.mp hq
    have hbound : place < (queues.map Queue.topic).length := by rwa [List.length_map]
    have hsame : (queues.map Queue.topic)[place] = queues[place].topic :=
      List.getElem_map Queue.topic
    rw [List.map_set, htopic, ← hsame, List.set_getElem_self]
    exact h.topics
  · intro q₁ hq₁
    rcases List.mem_or_eq_of_mem_set hq₁ with hold | rfl
    · exact h.lost q₁ hold
    · exact hlost
  · intro entry hentry
    rw [List.length_set]
    rcases List.mem_append.mp hentry with hold | hnew
    · exact h.places entry hold
    · rw [List.mem_singleton.mp hnew]
      exact hplace
  · intro other q₁ hq₁
    rw [List.getElem?_set] at hq₁
    rw [inPlace_append, inPlace_singleton, List.append_assoc]
    by_cases hother : place = other
    · subst hother
      rw [if_pos rfl, if_pos hplace] at hq₁
      cases hq₁
      rw [if_pos rfl, List.singleton_append, ← hcontents, htopic]
      exact h.stream hq
    · rw [if_neg hother] at hq₁
      rw [if_neg hother, List.nil_append]
      exact h.stream hq₁

/-- To receive everything is to be told what waits in every place. -/
theorem receive (h : Fed told topics offered queues) :
    Fed (told ++ placed queues) topics offered (queues.map Queue.emptied) := by
  refine ⟨?_, ?_, ?_, ?_⟩
  · rw [List.map_map, ← h.topics]
    rfl
  · intro q hq
    obtain ⟨old, -, rfl⟩ := List.mem_map.mp hq
    rfl
  · intro entry hentry
    rw [List.length_map]
    rcases List.mem_append.mp hentry with hold | hnew
    · exact h.places entry hold
    · exact lt_of_mem_placed hnew
  · intro place q hq
    rw [List.getElem?_map] at hq
    obtain ⟨old, hold, rfl⟩ := Option.map_eq_some_iff.mp hq
    rw [inPlace_append, inPlace_placed, hold, Option.elim_some, Queue.contents_emptied,
      List.append_nil]
    exact h.stream hold

/-- A subscriber that has read everything has been told each event as often as its topic is listed,
and nothing else. -/
theorem altogether (h : Fed told topics offered queues) (hread : ∀ q ∈ queues, q.contents = []) :
    (told.map Prod.snd).Perm (topics.flatMap fun topic => (offered topic).map .ok) := by
  have hstream : ∀ entry ∈ queues.zipIdx,
      inPlace told entry.2 = (offered entry.1.topic).map .ok := by
    rintro ⟨q, place⟩ hmem
    have hq := List.mem_zipIdx_iff_getElem?.mp hmem
    rw [← h.stream hq, hread q (List.mem_of_getElem? hq), List.append_nil]
  have hplaces : (List.range queues.length).flatMap (inPlace told) =
      topics.flatMap fun topic => (offered topic).map .ok := by
    rw [List.range_eq_range', ← List.zipIdx_map_snd, List.flatMap_map, List.flatMap_congr hstream,
      ← h.topics, List.flatMap_map]
    nth_rewrite 2 [← List.zipIdx_map_fst 0 queues]
    exact (List.flatMap_map Prod.fst (fun q : Queue => (offered q.topic).map Except.ok) _).symm
  exact hplaces ▸ perm_inPlace h.places

end Fed

end Audience

end Broker

end KeyedLedger
