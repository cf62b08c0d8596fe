import KeyedLedger.Proofs.Broker.Audience
import Mathlib.Data.List.Infix

/-! # What a broker delivers

A subscriber that keeps up, so that none of its queues ever has to hold more than there is room for,
is told what has been published since it subscribed: in the place of each topic of its list the
events of that topic, in their order, and nothing else. The record has what has been published since
it was cleared, whoever was there.
-/

namespace KeyedLedger

namespace Broker

variable {κ : Type} [DecidableEq κ]

namespace Audience

/-! ## One step -/

/-- What a subscriber has been told fits what has been offered to it, if it is there. -/
def Hears (s : Audience κ) (h : History κ) (name : κ) : Prop :=
  Option.Rel (fun topics queues => Fed (s.told name) topics (h.offered name) queues)
    (h.topics? name) (s.broker.queues? name)

/-- No subscriber has more to read in the place of one of its topics than there is room for. -/
def HasRoom (capacity : Nat) (s : Audience κ) (h : History κ) : Prop :=
  ∀ name topics, h.topics? name = some topics → ∀ place, (hplace : place < topics.length) →
    (h.offered name topics[place]).length ≤ (inPlace (s.told name) place).length + capacity

variable {capacity : Nat} {s s' : Audience κ} {h : History κ} {a : Act κ} {name : κ}

theorem hears_concat_iff (ha : a.renews name = false) (hevent : ∀ topic, a.eventOn? topic = none) :
    s.Hears (h ++ [a]) name ↔ s.Hears h name := by
  have hoffered : History.offered (h ++ [a]) name = h.offered name := by
    funext topic
    rw [History.offered_concat, ha, hevent]
    exact List.append_nil _
  rw [Hears, Hears, History.topics?_concat, ha, hoffered]
  rfl

/-- What is done is nothing to a subscriber whose queues stay as they are. -/
theorem Hears.frame (hs : s.Hears h name) (ha : a.renews name = false)
    (hevent : ∀ topic, a.eventOn? topic = none) (htold : s'.told name = s.told name)
    (hqueues : s'.broker.queues? name = s.broker.queues? name) : s'.Hears (h ++ [a]) name := by
  rw [hears_concat_iff ha hevent, Hears, htold, hqueues]
  exact hs

theorem Hears.publish (hs : s.Hears h name) (hreachable : s.broker.reachable = true)
    (hcapacity : s.broker.capacity = capacity) {topic : String} {e : Event}
    (hroom : HasRoom capacity (s.perform (.publish topic e)) (h ++ [.publish topic e])) :
    (s.perform (.publish topic e)).Hears (h ++ [.publish topic e]) name := by
  have hoffered : History.offered (h ++ [.publish topic e]) name = fun t =>
      h.offered name t ++ if topic = t then [e] else [] := by
    funext t
    rw [History.offered_concat]
    change h.offered name t ++ (if topic = t then some e else none).toList = _
    split <;> rfl
  have htopics : History.topics? (h ++ [.publish topic e]) name = h.topics? name :=
    History.topics?_concat h _ name
  have hqueues := Broker.queues?_publish hreachable topic e name
  have hfits := hroom name
  rw [hoffered, htopics] at hfits
  rw [Hears] at hs ⊢
  rw [hoffered, htopics]
  change Option.Rel _ _ ((s.broker.publish topic e).2.queues? name)
  rw [hqueues, hcapacity]
  generalize h.topics? name = topics?, s.broker.queues? name = queues? at hs hfits ⊢
  cases hs with
  | none => exact .none
  | @some topics queues hfed =>
      refine .some (hfed.publish e (fun {place q} hq htopic => ?_) s.broker.sent)
      have hlisted : topics[place]? = some topic := by
        rw [← hfed.topics, List.getElem?_map, hq, Option.map_some, htopic]
      obtain ⟨hplace, hget⟩ := List.getElem?_eq_some_iff.mp hlisted
      have hlength := hfits topics rfl place hplace
      rw [hget] at hlength
      simp only [if_true, List.length_append, List.length_singleton] at hlength
      exact Nat.lt_of_succ_le hlength

/-- A subscriber may be told what comes out of its queues. That is nothing to the others. -/
theorem Hears.change (hs : s.Hears h name) (ha : ∀ n, a.renews n = false)
    (hevent : ∀ topic, a.eventOn? topic = none) {other : κ} {f : List Queue → List Queue}
    {news : List (Nat × Except BrokerError Event)} {queues : List Queue}
    (hqueues : s.broker.queues? other = some queues)
    (hfed : ∀ {topics offered}, Fed (s.told other) topics offered queues →
      Fed (s.told other ++ news) topics offered (f queues)) :
    Hears ⟨s.broker.change other f, Function.update s.told other (s.told other ++ news)⟩ (h ++ [a])
      name := by
  by_cases hname : name = other
  · subst hname
    rw [Hears, hqueues] at hs
    rw [hears_concat_iff (ha name) hevent, Hears]
    simp only [Function.update_self, Broker.queues?_change, hqueues, Option.map_some, if_true]
    generalize h.topics? name = topics? at hs ⊢
    cases hs with
    | some hold => exact .some (hfed hold)
  · refine hs.frame (ha name) hevent (Function.update_of_ne hname _ _) ?_
    simp only [Broker.queues?_change, if_neg hname]

theorem Hears.read (hs : s.Hears h name) (other : κ) (place : Nat) :
    (s.perform (.read other place)).Hears (h ++ [.read other place]) name := by
  rcases s.broker.read?_cases other place with
    hnone | ⟨queues, q, item, q', hqueues, hq, hread, hrun⟩
  · rw [perform, hnone]
    exact hs.frame rfl (fun _ => rfl) rfl rfl
  · rw [perform, hrun]
    exact hs.change (fun _ => rfl) (fun _ => rfl) hqueues fun hfed => hfed.read hq hread

theorem Hears.receive (hs : s.Hears h name) (other : κ) :
    (s.perform (.receive other)).Hears (h ++ [.receive other]) name := by
  rcases s.broker.receive?_cases other with ⟨hnone, -⟩ | ⟨queues, hqueues, hrun⟩
  · rw [perform, hnone]
    exact hs.frame rfl (fun _ => rfl) rfl rfl
  · rw [perform, hqueues, hrun]
    exact hs.change (fun _ => rfl) (fun _ => rfl) hqueues fun hfed => hfed.receive

theorem Hears.subscribe (hs : s.Hears h name) (hreachable : s.broker.reachable = true) (other : κ)
    (topics : List String) :
    (s.perform (.subscribe other topics)).Hears (h ++ [.subscribe other topics]) name := by
  have hqueues := Broker.queues?_subscribe hreachable other name topics
  by_cases hname : name = other
  · subst hname
    have hrenews : (Act.subscribe name topics).renews name = true := decide_eq_true rfl
    have htopics : History.topics? (h ++ [.subscribe name topics]) name = some topics :=
      (History.topics?_concat h _ name).trans (if_pos hrenews)
    have hoffered : History.offered (h ++ [.subscribe name topics]) name = fun _ => [] :=
      funext fun topic => (History.offered_concat h _ name topic).trans (if_pos hrenews)
    rw [Hears, htopics, hoffered]
    change Option.Rel _ _ ((s.broker.subscribe name topics).queues? name)
    rw [hqueues, if_pos rfl]
    simp only [perform, Function.update_self]
    exact .some (.fresh topics)
  · exact hs.frame (decide_eq_false (Ne.symm hname)) (fun _ => rfl)
      (Function.update_of_ne hname _ _) (hqueues.trans (if_neg hname))

theorem Hears.unsubscribe (hs : s.Hears h name) (other : κ) :
    (s.perform (.unsubscribe other)).Hears (h ++ [.unsubscribe other]) name := by
  by_cases hname : name = other
  · subst hname
    have hgone : (s.perform (.unsubscribe name)).broker.queues? name = none :=
      (s.broker.queues?_unsubscribe name name).trans (if_pos rfl)
    have htopics : History.topics? (h ++ [.unsubscribe name]) name = none :=
      (History.topics?_concat h _ name).trans (if_pos (decide_eq_true rfl))
    rw [Hears, hgone, htopics]
    exact .none
  · refine hs.frame (decide_eq_false (Ne.symm hname)) (fun _ => rfl)
      (Function.update_of_ne hname _ _) ?_
    exact (s.broker.queues?_unsubscribe other name).trans (if_neg hname)

theorem Hears.step (hs : s.Hears h name) (hreachable : s.broker.reachable = true)
    (hcapacity : s.broker.capacity = capacity)
    (hroom : HasRoom capacity (s.perform a) (h ++ [a])) : (s.perform a).Hears (h ++ [a]) name := by
  cases a with
  | subscribe other topics => exact hs.subscribe hreachable other topics
  | unsubscribe other => exact hs.unsubscribe other
  | publish topic e => exact hs.publish hreachable hcapacity hroom
  | read other place => exact hs.read other place
  | receive other => exact hs.receive other
  | clear => exact hs.frame rfl (fun _ => rfl) rfl rfl

/-! ## The record -/

/-- Whatever is done, the broker takes events as before. Its record grows with what is published,
and is empty once it has been cleared. -/
theorem broker_perform (s : Audience κ) (a : Act κ) :
    (s.perform a).broker.reachable = s.broker.reachable ∧
      (s.perform a).broker.capacity = s.broker.capacity ∧
      (s.broker.reachable = true → ∀ topic, (s.perform a).broker.publishedTo topic =
        if a.isClear then [] else s.broker.publishedTo topic ++ (a.eventOn? topic).toList) := by
  have hrecord : s.broker.reachable = true → ∀ topic, s.broker.publishedTo topic =
      s.broker.publishedTo topic ++ [] := fun _ _ => (List.append_nil _).symm
  cases a with
  | subscribe name topics => exact ⟨rfl, rfl, hrecord⟩
  | unsubscribe name => exact ⟨rfl, rfl, hrecord⟩
  | publish topic e =>
      refine ⟨?_, ?_, fun hreachable other => ?_⟩
      · rw [perform, publish]
        split <;> rfl
      · rw [perform, publish]
        split <;> rfl
      · refine (publishedTo_publish hreachable topic other e).trans ?_
        change _ = s.broker.publishedTo other ++ (if topic = other then some e else none).toList
        split <;> rfl
  | read name place =>
      rcases s.broker.read?_cases name place with hnone | ⟨_, _, _, _, -, -, -, hrun⟩
      · rw [perform, hnone]
        exact ⟨rfl, rfl, hrecord⟩
      · rw [perform, hrun]
        exact ⟨rfl, rfl, hrecord⟩
  | receive name =>
      rcases s.broker.receive?_cases name with ⟨hnone, -⟩ | ⟨_, hqueues, hrun⟩
      · rw [perform, hnone]
        exact ⟨rfl, rfl, hrecord⟩
      · rw [perform, hqueues, hrun]
        exact ⟨rfl, rfl, hrecord⟩
  | clear => exact ⟨rfl, rfl, fun _ _ => rfl⟩

/-- Nothing that is done depends on the record. -/
theorem perform_clear (s : Audience κ) (a : Act κ) :
    ((s.perform .clear).perform a).perform .clear = (s.perform a).perform .clear := by
  cases a with
  | subscribe name topics => rfl
  | unsubscribe name => rfl
  | publish topic e =>
      simp only [perform, publish_clear]
  | read name place =>
      simp only [perform, read?_clear]
      rcases s.broker.read? name place with _ | ⟨item, broker⟩ <;> rfl
  | receive name =>
      have hqueues : s.broker.clear.queues? name = s.broker.queues? name := rfl
      simp only [perform, receive?_clear, hqueues]
      rcases s.broker.queues? name with _ | queues
      · rfl
      · rcases s.broker.receive? name with _ | ⟨items, broker⟩ <;> rfl
  | clear => rfl

/-! ## All that is done -/

theorem after_concat (capacity : Nat) (h : History κ) (a : Act κ) :
    after capacity (h ++ [a]) = (after capacity h).perform a :=
  List.foldl_concat ..

theorem broker_after (capacity : Nat) (h : History κ) :
    (after capacity h).broker.reachable = true ∧ (after capacity h).broker.capacity = capacity := by
  induction h using List.reverseRecOn with
  | nil => exact ⟨rfl, rfl⟩
  | append_singleton h a ih =>
      obtain ⟨hreachable, hcapacity, -⟩ := (after capacity h).broker_perform a
      rw [after_concat]
      exact ⟨hreachable.trans ih.1, hcapacity.trans ih.2⟩

/-- The record has the events that have been published since it was cleared, whoever is there. -/
theorem publishedTo_after (capacity : Nat) (h : History κ) (topic : String) :
    (after capacity h).broker.publishedTo topic = (h.sinceLast Act.isClear).publishedTo topic := by
  induction h using List.reverseRecOn with
  | nil => rfl
  | append_singleton h a ih =>
      obtain ⟨-, -, hrecord⟩ := (after capacity h).broker_perform a
      rw [after_concat, hrecord (broker_after capacity h).1, ih, History.sinceLast_concat]
      cases a.isClear with
      | true => rfl
      | false => exact (History.publishedTo_concat _ a topic).symm

/-- To clear the record makes no difference to what anybody is told or can still read. -/
theorem after_filter_clear (capacity : Nat) (h : History κ) :
    (after capacity (h.filter fun a => !a.isClear)).perform .clear =
      (after capacity h).perform .clear := by
  induction h using List.reverseRecOn with
  | nil => rfl
  | append_singleton h a ih =>
      rw [List.filter_append, after_concat, ← perform_clear, ← ih]
      cases a with
      | clear =>
          rw [List.filter_cons_of_neg (by simp [Act.isClear]), List.filter_nil, List.append_nil]
          rfl
      | _ =>
          rw [List.filter_cons_of_pos rfl, List.filter_nil, after_concat, ← perform_clear]

end Audience

open Audience

/-- At no time has a subscriber more to read in the place of one of its topics than there is room
for. -/
def History.KeepsUp (h : History κ) (capacity : Nat) : Prop :=
  ∀ h' ∈ h.inits, HasRoom capacity (after capacity h') h'

/-- Subscribers who keep up have been told what has been offered to them. -/
theorem History.KeepsUp.hears {h : History κ} {capacity : Nat} (hkeeps : h.KeepsUp capacity)
    (name : κ) : (after capacity h).Hears h name := by
  induction h using List.reverseRecOn with
  | nil => exact .none
  | append_singleton h a ih =>
      have hbefore : History.KeepsUp h capacity := fun h' hmem => hkeeps h' <|
        (List.mem_inits _ _).mpr (((List.mem_inits _ _).mp hmem).trans (List.prefix_append h [a]))
      have hroom := hkeeps (h ++ [a]) ((List.mem_inits _ _).mpr List.prefix_rfl)
      obtain ⟨hreachable, hcapacity⟩ := broker_after capacity h
      rw [after_concat] at hroom ⊢
      exact (ih hbefore).step hreachable hcapacity hroom

theorem History.KeepsUp.fed {h : History κ} {capacity : Nat} (hkeeps : h.KeepsUp capacity)
    {name : κ} {topics : List String} (htopics : h.topics? name = some topics) :
    ∃ queues, (after capacity h).broker.queues? name = some queues ∧
      Fed ((after capacity h).told name) topics (h.offered name) queues := by
  have hhears := hkeeps.hears name
  rw [Hears, htopics] at hhears
  generalize (after capacity h).broker.queues? name = queues? at hhears ⊢
  cases hhears with
  | some hfed => exact ⟨_, rfl, hfed⟩

/-- Nothing that is published is lost, and nothing is made up. -/
structure Faithful (capacity : Nat) (h : History κ) (s : Audience κ) : Prop where
  /-- A subscription is there until it is dropped. -/
  live : ∀ name, (s.broker.queues? name).isSome = (h.topics? name).isSome
  /-- In the place of each of its topics a subscriber has been told, or can still read, what has
  been published on the topic since it subscribed, in that order. -/
  inOrder : ∀ {name topics}, h.topics? name = some topics → ∀ {place topic},
    topics[place]? = some topic →
      inPlace (s.told name) place ++ s.unreadIn name place = (h.offered name topic).map .ok
  /-- Altogether that is each event as often as its topic is listed, and nothing else. -/
  altogether : ∀ {name topics}, h.topics? name = some topics →
    ((s.told name).map Prod.snd ++ s.unread name).Perm
      (topics.flatMap fun topic => (h.offered name topic).map .ok)
  /-- The record has what has been published on a topic since it was cleared. -/
  record : ∀ topic, s.broker.publishedTo topic = (h.sinceLast Act.isClear).publishedTo topic
  /-- Had it never been cleared, everybody would have been told and could read the same. -/
  uncleared : (after capacity (h.filter fun a => !a.isClear)).told = s.told ∧
    (after capacity (h.filter fun a => !a.isClear)).broker.subscriptions = s.broker.subscriptions

/-- A broker delivers and records what is published as long as its subscribers keep up. -/
theorem faithful_after {h : History κ} {capacity : Nat} (hkeeps : h.KeepsUp capacity) :
    Faithful capacity h (after capacity h) := by
  refine ⟨fun name => ?_, ?_, ?_, publishedTo_after capacity h, ?_⟩
  · have hhears := hkeeps.hears name
    rw [Hears] at hhears
    generalize h.topics? name = topics? at hhears ⊢
    generalize (after capacity h).broker.queues? name = queues? at hhears ⊢
    cases hhears <;> rfl
  · intro name topics htopics place topic htopic
    obtain ⟨queues, hqueues, hfed⟩ := hkeeps.fed htopics
    rw [← hfed.topics, List.getElem?_map] at htopic
    obtain ⟨q, hq, rfl⟩ := Option.map_eq_some_iff.mp htopic
    rw [← hfed.stream hq, unreadIn, hqueues, Option.bind_some, hq]
    rfl
  · intro name topics htopics
    obtain ⟨queues, hqueues, hfed⟩ := hkeeps.fed htopics
    have hunread : (after capacity h).unread name = (placed queues).map Prod.snd := by
      rw [unread, receive?, hqueues, map_snd_placed]
      rfl
    rw [hunread, ← List.map_append]
    refine hfed.receive.altogether fun q hq => ?_
    obtain ⟨old, -, rfl⟩ := List.mem_map.mp hq
    exact old.contents_emptied
  · have hsame := after_filter_clear capacity h
    have htold := congrArg Audience.told hsame
    have hbroker := congrArg Audience.broker hsame
    have hsubscriptions := congrArg subscriptions hbroker
    exact ⟨htold, hsubscriptions⟩

end Broker

namespace Sample

open Broker Audience

/-- Events are told apart by their types here. -/
def stirring (eventType : String) : Event :=
  ⟨eventType, ByteArray.empty, {}⟩

/-- Two subscribers, one of whom lists a topic twice, at a broker whose record is cleared once. -/
def audited : History Bool :=
  [.publish "accounts" (stirring "first"), .subscribe true ["accounts", "transactions", "accounts"],
    .publish "accounts" (stirring "second"), .read true 0, .clear, .read true 2,
    .subscribe false ["accounts"], .publish "transactions" (stirring "third"),
    .publish "accounts" (stirring "fourth"), .receive true, .publish "claims" (stirring "fifth")]

theorem keepsUp_audited : audited.KeepsUp 1 := by
  simp only [History.KeepsUp, Audience.HasRoom]
  decide

theorem faithful_after_audited : audited.KeepsUp 1 ∧
    (audited.topics? true = some ["accounts", "transactions", "accounts"] ∧
      ∀ place ∈ [0, 2], inPlace ((after 1 audited).told true) place =
        [.ok (stirring "second"), .ok (stirring "fourth")]) ∧
    (audited.topics? false = some ["accounts"] ∧
      (after 1 audited).unread false = [.ok (stirring "fourth")]) ∧
    (after 1 audited).broker.publishedTo "claims" = [stirring "fifth"] ∧
    (after 1 audited).broker.publishedTo "accounts" = [stirring "fourth"] := by
  have h := faithful_after keepsUp_audited
  have hlisted : audited.topics? true = some ["accounts", "transactions", "accounts"] := rfl
  have hlisted' : audited.topics? false = some ["accounts"] := rfl
  refine ⟨keepsUp_audited, ⟨hlisted, ?_⟩, ⟨hlisted', ?_⟩, h.record "claims", h.record "accounts"⟩
  · intro place hplace
    have hread : ["accounts", "transactions", "accounts"][place]? = some "accounts" ∧
        (after 1 audited).unreadIn true place = [] := by
      rcases List.mem_pair.mp hplace with rfl | rfl <;> exact ⟨rfl, rfl⟩
    have hstream := h.inOrder hlisted hread.1
    rw [hread.2, List.append_nil] at hstream
    exact hstream
  · exact List.perm_singleton.mp (h.altogether hlisted')

end Sample

end KeyedLedger
