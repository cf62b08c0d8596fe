import Mathlib.Data.List.Nodup
import KeyedLedger.Feed
import KeyedLedger.Proofs.Gateway.Slots

/-! # The tasks of a connection

A task forwards all that is published on its topic until it is ended, and it can only be ended by
its handle. The handles are kept by topic, so a task whose handle had been replaced would run on and
every message would arrive once more. That does not come about (`Tended`): a task is only started
for a topic that has no handle, and a handle is only given up together with its task. So a topic is
forwarded once if it has a handle, and otherwise not at all (`Tended.running`).
-/

namespace KeyedLedger.Listener

open Waiting

variable {l : Listener}

/-- The tasks that run are those whose handles are kept. -/
structure Tended (l : Listener) : Prop where
  /-- A task runs as long as its handle is kept for its topic. -/
  handled : ∀ f, f ∈ l.forwarders ↔ l.handles.lookup f.topic = some f.number
  /-- No handle belongs to two tasks. -/
  distinct : (l.forwarders.map Forwarder.number).Nodup
  /-- The next task gets a handle of its own. -/
  fresh : ∀ f ∈ l.forwarders, f.number < l.started

theorem Tended.of_nil (hforwarders : l.forwarders = []) (hhandles : l.handles = []) :
    l.Tended where
  handled f := by simp [hforwarders, hhandles]
  distinct := by simp [hforwarders]
  fresh f hf := by simp [hforwarders] at hf

/-! ## Topics that have a handle -/

theorem holds_start (l : Listener) (topic t : String) :
    (l.start topic).holds t = (decide (t = topic) || l.holds t) := by
  simp only [holds, start, lookup_cons_ite, lookup_filter_ne]
  by_cases h : t = topic
  · simp [h]
  · simp [h]

theorem holds_take (l : Listener) (topic t : String) :
    (l.take topic).holds t = (decide (t = topic) || l.holds t) := by
  rw [take]
  split
  next hheld =>
    by_cases h : t = topic
    · simp [h, hheld]
    · simp [h]
  next => exact holds_start l topic t

theorem holds_drop (l : Listener) (topic t : String) :
    (l.drop topic).holds t = (decide (t ≠ topic) && l.holds t) := by
  rw [drop]
  split
  next =>
    rw [holds, lookup_filter_ne]
    by_cases h : t = topic
    · simp [h]
    · rw [if_neg h, decide_eq_true h, Bool.true_and, holds]
  next hnone =>
    rw [holds]
    by_cases h : t = topic
    · rw [h, hnone]
      simp
    · simp [h]

theorem holds_foldl_take (l : Listener) (topics : List String) (t : String) :
    (topics.foldl take l).holds t = (decide (t ∈ topics) || l.holds t) := by
  induction topics generalizing l with
  | nil => simp
  | cons first rest ih =>
      rw [List.foldl_cons, ih, holds_take]
      by_cases hfirst : t = first
      · simp [hfirst]
      · simp [hfirst]

theorem holds_foldl_drop (l : Listener) (topics : List String) (t : String) :
    (topics.foldl drop l).holds t = (decide (t ∉ topics) && l.holds t) := by
  induction topics generalizing l with
  | nil => simp
  | cons first rest ih =>
      rw [List.foldl_cons, ih, holds_drop]
      by_cases hfirst : t = first
      · simp [hfirst]
      · simp [hfirst]

/-! ## No task without its handle -/

theorem Tended.start (h : l.Tended) {topic : String} (hnone : l.handles.lookup topic = none) :
    (l.start topic).Tended where
  handled f := by
    rcases f with ⟨number, t⟩
    rw [Listener.start, lookup_cons_ite, lookup_filter_ne, List.mem_append, List.mem_singleton,
      h.handled, Forwarder.mk.injEq]
    by_cases ht : t = topic
    · subst ht
      simp [hnone, eq_comm]
    · simp [ht]
  distinct := by
    rw [Listener.start, List.map_append, List.nodup_append]
    refine ⟨h.distinct, List.nodup_singleton _, ?_⟩
    intro number hnumber _ hnew
    obtain ⟨f, hf, rfl⟩ := List.mem_map.mp hnumber
    rw [List.mem_singleton.mp hnew]
    exact Nat.ne_of_lt (h.fresh f hf)
  fresh f hf := by
    rcases List.mem_append.mp hf with hf | hf
    · exact Nat.lt_succ_of_lt (h.fresh f hf)
    · rw [List.mem_singleton.mp hf]
      exact Nat.lt_succ_self _

theorem Tended.take (h : l.Tended) (topic : String) : (l.take topic).Tended := by
  rw [Listener.take]
  split
  next => exact h
  next hheld => exact h.start (Option.not_isSome_iff_eq_none.mp hheld)

/-- The task of a handle is the only one with its number, so only that one is ended. -/
theorem Tended.drop (h : l.Tended) (topic : String) : (l.drop topic).Tended := by
  rw [Listener.drop]
  split
  next number hnumber =>
    have hmem : ⟨number, topic⟩ ∈ l.forwarders := (h.handled _).mpr hnumber
    refine ⟨fun f => ?_, ?_, fun f hf => h.fresh f (List.mem_of_mem_filter hf)⟩
    · rw [lookup_filter_ne, List.mem_filter, decide_eq_true_iff, h.handled]
      by_cases htopic : f.topic = topic
      · simp [htopic, hnumber, eq_comm]
      · rw [if_neg htopic, and_iff_left_iff_imp]
        rintro hf rfl
        exact htopic (congrArg Forwarder.topic
          (List.inj_on_of_nodup_map h.distinct ((h.handled f).mpr hf) hmem rfl))
    · exact h.distinct.sublist (List.filter_sublist.map _)
  next => exact h

theorem Tended.foldl_take (h : l.Tended) (topics : List String) :
    (topics.foldl Listener.take l).Tended := by
  induction topics generalizing l with
  | nil => exact h
  | cons first rest ih => exact ih (h.take first)

theorem Tended.foldl_drop (h : l.Tended) (topics : List String) :
    (topics.foldl Listener.drop l).Tended := by
  induction topics generalizing l with
  | nil => exact h
  | cons first rest ih => exact ih (h.drop first)

/-- All tasks are ended with the connection. -/
theorem Tended.forwarders_disconnect (h : l.Tended) : l.disconnect.forwarders = [] := by
  refine List.filter_eq_nil_iff.mpr fun f hf hleft => ?_
  obtain ⟨before, after, hhandles, -⟩ := List.lookup_eq_some_iff.mp ((h.handled f).mp hf)
  refine of_decide_eq_true hleft (List.mem_map.mpr ⟨(f.topic, f.number), ?_, rfl⟩)
  simp [hhandles]

/-- The tasks do not depend on what waits to be received. -/
theorem Tended.with_inbox (h : l.Tended) (messages : List ServerMessage) :
    { l with inbox := messages }.Tended :=
  ⟨h.handled, h.distinct, h.fresh⟩

/-! ## What is forwarded -/

/-- Whether there is a connection, and what waits to be received. -/
def line (l : Listener) : Bool × List ServerMessage :=
  (l.connected, l.inbox)

theorem line_take (l : Listener) (topic : String) : (l.take topic).line = l.line := by
  rw [take]
  split <;> rfl

theorem line_drop (l : Listener) (topic : String) : (l.drop topic).line = l.line := by
  rw [drop]
  split <;> rfl

theorem line_foldl {step : Listener → String → Listener}
    (hstep : ∀ l topic, (step l topic).line = l.line) (l : Listener) (topics : List String) :
    (topics.foldl step l).line = l.line := by
  induction topics generalizing l with
  | nil => rfl
  | cons first rest ih => rw [List.foldl_cons, ih, hstep]

/-- For a topic that has a handle one task runs, for any other none. -/
theorem Tended.running (h : l.Tended) (topic : String) :
    l.running topic = (l.handles.lookup topic).toList.map fun number => ⟨number, topic⟩ := by
  have hnodup : (l.running topic).Nodup := (List.Nodup.of_map _ h.distinct).filter _
  have hmem : ∀ f, f ∈ l.running topic ↔
      f ∈ (l.handles.lookup topic).toList.map fun number => (⟨number, topic⟩ : Forwarder) := by
    rintro ⟨number, t⟩
    rw [Listener.running, List.mem_filter, h.handled]
    cases hlookup : l.handles.lookup topic <;> grind
  have hperm := (List.perm_ext_iff_of_nodup hnodup
    (by cases l.handles.lookup topic <;> simp)).mpr hmem
  cases hlookup : l.handles.lookup topic with
  | none => simpa [hlookup] using hperm
  | some number => simpa [hlookup] using hperm

theorem hear_of_running_nil {topic : String} (h : l.running topic = []) (payload : Json) :
    l.hear topic payload = l := by
  have hnone : ∀ f ∈ l.forwarders, f.topic ≠ topic := by
    simpa [Listener.running, List.filter_eq_nil_iff] using h
  rw [hear]
  split
  · rw [h, List.map_nil, List.append_nil]
  · rw [List.filter_eq_self.mpr fun f hf => decide_eq_true (hnone f hf)]

/-- What is published is told once where the topic has a handle, and not otherwise. -/
theorem Tended.hear (h : l.Tended) {topic : String}
    (hconnected : l.holds topic = true → l.connected = true) (payload : Json) :
    l.hear topic payload = if l.holds topic then l.tell (.event topic payload) else l := by
  have hrunning := h.running topic
  rw [holds] at hconnected ⊢
  cases hlookup : l.handles.lookup topic with
  | none =>
      rw [hlookup] at hrunning
      exact hear_of_running_nil hrunning payload
  | some number =>
      rw [hlookup] at hrunning hconnected
      rw [Listener.hear, if_pos (hconnected rfl), hrunning]
      rfl

end KeyedLedger.Listener
