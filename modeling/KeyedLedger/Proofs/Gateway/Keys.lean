import KeyedLedger.Gateway.Call

/-! # What a gateway keeps of a key

A gateway remembers keys and keeps those who wait for them. A completed request comes to be
remembered only when an answer is delivered; every other step keeps or drops what is remembered.
Those who wait for one key are as many as have joined and not left, and all of them see its
resolution.
-/

namespace KeyedLedger

/-- What those who wait for a key are told of an outcome. -/
def Gateway.Outcome.resolution : Gateway.Outcome → Resolution
  | answer payload => .completed payload
  | rejection r => .rejected r

/-! ## What is remembered -/

namespace Memory

theorem mem_replace {key : String} {t : Trace} {e : String × Trace}
    {traces : List (String × Trace)} (h : e ∈ replace key t traces) :
    e = (key, t) ∨ e ∈ traces := by
  induction traces with
  | nil => exact Or.inl (List.mem_singleton.mp h)
  | cons head rest ih =>
      rcases head with ⟨k, u⟩
      rw [replace] at h
      split at h
      next hkey =>
        rcases List.mem_cons.mp h with rfl | h
        · exact Or.inl (by rw [hkey])
        · exact Or.inr (List.mem_cons_of_mem _ h)
      next =>
        rcases List.mem_cons.mp h with rfl | h
        · exact Or.inr List.mem_cons_self
        · exact (ih h).imp_right (List.mem_cons_of_mem _)

/-- No completed request is remembered by noting that one is in flight. -/
theorem mem_markInFlight {m : Memory} {now time : Timestamp} {key key' : String}
    {request : Completed} (h : (key', .completed request time) ∈ (m.markInFlight now key).traces) :
    (key', .completed request time) ∈ m.traces := by
  rw [markInFlight] at h
  split at h
  · exact h
  · rcases mem_replace h with heq | h
    · cases heq
    · exact h

theorem mem_afterFailure {m : Memory} {key : String} {e : GatewayError} {entry : String × Trace}
    (h : entry ∈ (m.afterFailure key e).traces) : entry ∈ m.traces := by
  rw [afterFailure.eq_def] at h
  split at h
  · exact h
  · exact (List.mem_filter.mp h).1

theorem mem_of_completed? {m : Memory} {now : Timestamp} {key : String} {request : Completed}
    (h : m.completed? now key = some request) :
    ∃ time, (key, .completed request time) ∈ m.traces := by
  rw [completed?] at h
  split at h
  next known time htrace =>
    split at h
    · cases h
      obtain ⟨before, after, htraces, -⟩ := List.lookup_eq_some_iff.mp htrace
      exact ⟨time, by rw [htraces]; exact List.mem_append_right _ List.mem_cons_self⟩
    · cases h
  next => cases h

end Memory

namespace Gateway

theorem resolve_waiting (g : Gateway) (type : RequestType) (key : String) (r : Resolution) :
    (g.resolve type key r).waiting = (g.waiting.resolve key r).2 := by
  rw [resolve]
  rcases g.waiting.resolve key r with ⟨_ | _, waiting⟩ <;> rfl

theorem resolve_memory (g : Gateway) (type : RequestType) (key : String) (r : Resolution) :
    (g.resolve type key r).memory = g.memory := by
  rw [resolve]
  rcases g.waiting.resolve key r with ⟨_ | _, waiting⟩ <;> rfl

/-- An outcome resolves its key. -/
theorem deliver_waiting (g : Gateway) (type : RequestType) (key : String) (outcome : Outcome)
    (now : Timestamp) :
    (g.deliver type key outcome now).waiting = (g.waiting.resolve key outcome.resolution).2 := by
  cases outcome <;> simp only [deliver, resolve_waiting, Outcome.resolution]

/-- An answer is remembered as a completed request, and nothing else is. -/
theorem mem_deliver {g : Gateway} {type : RequestType} {key key' : String} {outcome : Outcome}
    {now time : Timestamp} {request : Completed}
    (h : (key', .completed request time) ∈ (g.deliver type key outcome now).memory.traces) :
    (key', .completed request time) ∈ g.memory.traces ∨
      ∃ payload, outcome = .answer payload ∧ key' = key ∧ request = ⟨type.code, payload⟩ := by
  cases outcome with
  | answer payload =>
      simp only [deliver, resolve_memory, Memory.markCompleted] at h
      rcases Memory.mem_replace h with heq | h
      · cases heq
        exact Or.inr ⟨payload, rfl, rfl, rfl⟩
      · exact Or.inl h
  | rejection r =>
      simp only [deliver, resolve_memory, Memory.clear] at h
      exact Or.inl (List.mem_filter.mp h).1

end Gateway

/-! ## Those who wait for one key -/

namespace Waiting

/-- One key is waited for. -/
def only (key : String) (slot : Slot) : Waiting :=
  ⟨[(key, slot)]⟩

variable {key : String}

theorem slot?_only (slot : Slot) : (only key slot).slot? key = some slot :=
  List.lookup_cons_self

theorem update_only (slot : Slot) (f : Slot → Slot) :
    (only key slot).update key f = only key (f slot) := by
  simp [update, only]

theorem join_empty : ({} : Waiting).join key = (.publisher, only key {}) :=
  rfl

theorem join_only (slot : Slot) :
    (only key slot).join key = (.attached, only key { slot with waiters := slot.waiters + 1 }) := by
  rw [join, slot?_only]
  simp only [update_only]

theorem resolve_only (n : Nat) (r : Resolution) :
    (only key ⟨none, n⟩).resolve key r = (true, only key ⟨some r, n⟩) := by
  rw [resolve, slot?_only]
  simp only [update_only]

theorem outcome?_only (key : String) (slot : Slot) :
    (only key slot).outcome? key = slot.resolution := by
  rw [outcome?, slot?_only, Option.bind_some]

theorem leave_last (r : Option Resolution) : (only key ⟨r, 1⟩).leave key = {} := by
  rw [leave, slot?_only]
  simp [only]

theorem leave_only (r : Option Resolution) {n : Nat} (hn : 0 < n) :
    (only key ⟨r, n + 1⟩).leave key = only key ⟨r, n⟩ := by
  rw [leave, slot?_only]
  simp only [update_only]
  rw [if_neg (by omega), Nat.add_sub_cancel]

end Waiting

end KeyedLedger
