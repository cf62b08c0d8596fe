import KeyedLedger.Proofs.Gateway.Slots
import KeyedLedger.Proofs.Time.Steady
import Mathlib.Data.List.Induction

/-! # What a memory recalls

What a memory holds of a key depends on what has been done under that key, and on the purges: the
last completion is held from then on, until a purge finds it too old. So as long as the clock never
goes back, a memory answers with the last completion of a key while it is not too old, and nothing
else that is done to the memory makes a difference to that.
-/

namespace KeyedLedger

namespace Memory

/-- The keys of which something is remembered. -/
def keys (m : Memory) : List String :=
  m.traces.map Prod.fst

/-! ## The trace of a key -/

theorem lookup_replace (key k : String) (t : Trace) (traces : List (String × Trace)) :
    (replace key t traces).lookup k = if k = key then some t else traces.lookup k := by
  induction traces with
  | nil => exact Waiting.lookup_cons_ite k key t []
  | cons head rest ih =>
      rcases head with ⟨j, u⟩
      rw [replace]
      split
      next hj =>
        rw [Waiting.lookup_cons_ite, Waiting.lookup_cons_ite, hj]
        split <;> rfl
      next hj =>
        rw [Waiting.lookup_cons_ite, Waiting.lookup_cons_ite, ih]
        by_cases hk : k = j
        · rw [if_pos hk, if_pos hk, if_neg (hk ▸ hj)]
        · rw [if_neg hk, if_neg hk]

theorem map_fst_replace (key : String) (t : Trace) (traces : List (String × Trace)) :
    (replace key t traces).map Prod.fst =
      if key ∈ traces.map Prod.fst then traces.map Prod.fst else traces.map Prod.fst ++ [key] := by
  induction traces with
  | nil => rfl
  | cons head rest ih =>
      rcases head with ⟨j, u⟩
      rw [replace]
      by_cases hj : j = key
      · simp [hj]
      · simp only [if_neg hj, List.map_cons, ih, List.mem_cons, Ne.symm hj, false_or]
        split <;> rfl

theorem nodup_replace {key : String} {t : Trace} {traces : List (String × Trace)}
    (h : (traces.map Prod.fst).Nodup) : ((replace key t traces).map Prod.fst).Nodup := by
  rw [map_fst_replace]
  split
  next => exact h
  next hnew =>
    refine List.nodup_append.mpr ⟨h, List.pairwise_singleton _ key, ?_⟩
    rintro k hk _ hkey rfl
    exact hnew (List.mem_singleton.mp hkey ▸ hk)

/-- Where no key occurs twice, a look-up after a filter is a filter after the look-up. -/
theorem lookup_filter_of_nodup {traces : List (String × Trace)} (keep : String × Trace → Bool)
    (h : (traces.map Prod.fst).Nodup) (k : String) :
    (traces.filter keep).lookup k = (traces.lookup k).filter fun t => keep (k, t) := by
  induction traces with
  | nil => rfl
  | cons head rest ih =>
      rcases head with ⟨j, t⟩
      obtain ⟨hj, hrest⟩ := List.nodup_cons.mp h
      rw [Waiting.lookup_cons_ite, List.filter_cons]
      by_cases hk : k = j
      · subst hk
        -- no further trace of the key can come to light
        have hnone : rest.lookup k = none := by
          rw [List.lookup_eq_none_iff]
          intro e he
          rw [bne_iff_ne]
          rintro rfl
          exact hj (List.mem_map.mpr ⟨e, he, rfl⟩)
        rw [if_pos rfl, Option.filter_some]
        split
        next hkeep => exact List.lookup_cons_self
        next hkeep => rw [ih hrest, hnone, Option.filter_none]
      · rw [if_neg hk, ← ih hrest]
        split
        next => rw [Waiting.lookup_cons_ite, if_neg hk]
        next => rfl

variable {m : Memory} {now : Timestamp} {key : String}

theorem isLive_iff {t : Trace} : m.isLive now t = true ↔ now.since t.touched < m.lifetime :=
  decide_eq_true_iff

/-- A mark in flight leaves a completed request as it is. -/
theorem trace?_markInFlight (m : Memory) (now : Timestamp) (key k : String) :
    (m.markInFlight now key).trace? k =
      if k = key then
        match m.trace? key with
        | some (.completed request time) => some (.completed request time)
        | _ => some (.inFlight now)
      else m.trace? k := by
  rw [markInFlight]
  rcases htrace : m.trace? key with _ | _ | ⟨request, time⟩
  · exact lookup_replace key k _ _
  · exact lookup_replace key k _ _
  · dsimp only
    split
    next hk => rw [hk, htrace]
    next => rfl

theorem trace?_markCompleted (m : Memory) (now : Timestamp) (key : String) (request : Completed)
    (k : String) : (m.markCompleted now key request).trace? k =
      if k = key then some (.completed request now) else m.trace? k :=
  lookup_replace key k _ _

theorem trace?_clear (h : m.keys.Nodup) (key k : String) :
    (m.clear key).trace? k =
      if k = key then (m.trace? key).filter fun t => !t.isInFlight else m.trace? k := by
  rw [trace?, clear, lookup_filter_of_nodup _ h]
  split
  next hk => simp [hk, trace?]
  next hk => cases htrace : m.traces.lookup k <;> simp [hk, trace?, htrace, Option.filter_some]

theorem trace?_purge (h : m.keys.Nodup) (now : Timestamp) (k : String) :
    (m.purge now).2.trace? k = (m.trace? k).filter (m.isLive now) :=
  lookup_filter_of_nodup _ h k

/-! ## What is done to a memory -/

/-- What is done to a memory. -/
inductive Act where
  | markInFlight (key : String)
  | markCompleted (key : String) (request : Completed)
  | clear (key : String)
  | purge

/-- The memory once something has been done to it. -/
def act (m : Memory) (now : Timestamp) : Act → Memory
  | .markInFlight key => m.markInFlight now key
  | .markCompleted key request => m.markCompleted now key request
  | .clear key => m.clear key
  | .purge => (m.purge now).2

theorem lifetime_act (m : Memory) (now : Timestamp) (a : Act) :
    (m.act now a).lifetime = m.lifetime := by
  cases a with
  | markInFlight key =>
      simp only [act, markInFlight]
      split <;> rfl
  | markCompleted key request => rfl
  | clear key => rfl
  | purge => rfl

theorem nodup_act (h : m.keys.Nodup) (now : Timestamp) (a : Act) : (m.act now a).keys.Nodup := by
  cases a with
  | markInFlight key =>
      simp only [act, markInFlight]
      split
      · exact h
      · exact nodup_replace h
  | markCompleted key request => exact nodup_replace h
  | clear key => exact h.sublist (List.filter_sublist.map _)
  | purge => exact h.sublist (List.filter_sublist.map _)

namespace Act

/-- The request under the key is completed. -/
def Completes (key : String) : Act → Prop
  | markCompleted k _ => k = key
  | _ => False

/-- It is done under the key. -/
def Concerns (key : String) : Act → Prop
  | markInFlight k => k = key
  | markCompleted k _ => k = key
  | clear k => k = key
  | purge => False

end Act

/-- What is not done under a key leaves its trace as it is, unless it is a purge. -/
theorem trace?_act_of_not_concerns (hkeys : m.keys.Nodup) {a : Act} (ha : ¬ a.Concerns key)
    (hpurge : a ≠ .purge) : (m.act now a).trace? key = m.trace? key := by
  cases a with
  | markInFlight k => exact (trace?_markInFlight m now k key).trans (if_neg (Ne.symm ha))
  | markCompleted k request =>
      exact (trace?_markCompleted m now k request key).trans (if_neg (Ne.symm ha))
  | clear k => exact (trace?_clear hkeys k key).trans (if_neg (Ne.symm ha))
  | purge => exact absurd rfl hpurge

/-- What has been done to a memory, and when. -/
abbrev History := List (Timestamp × Act)

namespace History

/-- The readings of the clock. -/
def times (h : History) : List Timestamp :=
  h.map Prod.fst

/-- Something has been done after such a beginning, and since then only what is allowed. -/
def Since (h : History) (beginning : History → Prop) (e : Timestamp × Act)
    (allowed : Timestamp × Act → Prop) : Prop :=
  ∃ before later, h = before ++ e :: later ∧ beginning before ∧ ∀ e' ∈ later, allowed e'

theorem not_since_nil {beginning : History → Prop} {e : Timestamp × Act}
    {allowed : Timestamp × Act → Prop} : ¬ Since [] beginning e allowed := by
  rintro ⟨before, later, h, -⟩
  simp at h

theorem since_concat {h : History} {beginning : History → Prop} {e last : Timestamp × Act}
    {allowed : Timestamp × Act → Prop} :
    Since (h ++ [last]) beginning e allowed ↔
      last = e ∧ beginning h ∨ h.Since beginning e allowed ∧ allowed last := by
  constructor
  · rintro ⟨before, later, heq, hbefore, hlater⟩
    cases later using List.reverseRecOn with
    | nil =>
        obtain ⟨rfl, hlast⟩ := List.append_inj' heq rfl
        exact .inl ⟨List.head_eq_of_cons_eq hlast, hbefore⟩
    | append_singleton middle e' =>
        rw [← List.cons_append, ← List.append_assoc] at heq
        obtain ⟨rfl, hlast⟩ := List.append_inj' heq rfl
        obtain rfl := List.head_eq_of_cons_eq hlast
        refine .inr ⟨⟨before, middle, rfl, hbefore, fun e' he' => ?_⟩, ?_⟩
        · exact hlater e' (List.mem_append_left _ he')
        · exact hlater last (List.mem_append_right _ (List.mem_singleton_self _))
  · rintro (⟨rfl, hbefore⟩ | ⟨⟨before, later, rfl, hbefore, hlater⟩, hlast⟩)
    · exact ⟨h, [], rfl, hbefore, nofun⟩
    · refine ⟨before, later ++ [last], by simp, hbefore, fun e' he' => ?_⟩
      rcases List.mem_append.mp he' with he' | he'
      · exact hlater e' he'
      · exact List.mem_singleton.mp he' ▸ hlast

/-- The last completion of a key. -/
def LastCompleted (h : History) (key : String) (time : Timestamp) (request : Completed) : Prop :=
  h.Since (fun _ => True) (time, .markCompleted key request) fun e => ¬ e.2.Completes key

/-- The last completion of a key, if no purge has found it too old. -/
def Keeps (h : History) (lifetime : Int) (key : String) (time : Timestamp) (request : Completed) :
    Prop :=
  h.Since (fun _ => True) (time, .markCompleted key request) fun e =>
    ¬ e.2.Completes key ∧ (e.2 = .purge → e.1.since time < lifetime)

variable {h : History} {e : Timestamp × Act} {key : String} {time : Timestamp}
  {request : Completed}

theorem lastCompleted_concat : LastCompleted (h ++ [e]) key time request ↔
    e = (time, .markCompleted key request) ∨
      h.LastCompleted key time request ∧ ¬ e.2.Completes key := by
  rw [LastCompleted, since_concat, and_true]
  rfl

theorem keeps_concat {lifetime : Int} : Keeps (h ++ [e]) lifetime key time request ↔
    e = (time, .markCompleted key request) ∨ h.Keeps lifetime key time request ∧
      ¬ e.2.Completes key ∧ (e.2 = .purge → e.1.since time < lifetime) := by
  rw [Keeps, since_concat, and_true]
  rfl

end History

/-- A memory to which all this has been done. -/
def after (lifetime : Int) (h : History) : Memory :=
  h.foldl (fun m e => m.act e.1 e.2) { lifetime := lifetime }

variable {lifetime : Int} {h : History}

theorem after_concat (lifetime : Int) (h : History) (e : Timestamp × Act) :
    after lifetime (h ++ [e]) = (after lifetime h).act e.1 e.2 := by
  rw [after, List.foldl_append]
  rfl

theorem lifetime_after (lifetime : Int) (h : History) : (after lifetime h).lifetime = lifetime := by
  induction h using List.reverseRecOn with
  | nil => rfl
  | append_singleton h e ih => rw [after_concat, lifetime_act, ih]

theorem nodup_after (lifetime : Int) (h : History) : (after lifetime h).keys.Nodup := by
  induction h using List.reverseRecOn with
  | nil => exact List.nodup_nil
  | append_singleton h e ih =>
      rw [after_concat]
      exact nodup_act ih _ _

/-! ## What is held -/

/-- A completed request is held once it has been marked, and until the next one is marked or a purge
finds it too old. -/
theorem completed_act_iff (hkeys : m.keys.Nodup) {a : Act} {request : Completed}
    {time : Timestamp} :
    (m.act now a).trace? key = some (.completed request time) ↔
      a = .markCompleted key request ∧ now = time ∨
        m.trace? key = some (.completed request time) ∧
          ¬ a.Completes key ∧ (a = .purge → now.since time < m.lifetime) := by
  cases a with
  | markInFlight k =>
      rw [act, trace?_markInFlight]
      split
      next hk =>
        subst hk
        rcases m.trace? key with _ | _ | _ <;> simp [Act.Completes]
      next => simp [Act.Completes]
  | markCompleted k r =>
      rw [act, trace?_markCompleted]
      split
      next hk => subst hk; simp [Act.Completes]
      next hk => simp [Act.Completes, Ne.symm hk]
  | clear k =>
      rw [act, trace?_clear hkeys]
      split
      next hk =>
        subst hk
        rcases m.trace? key with _ | _ | _ <;> simp [Act.Completes, Trace.isInFlight]
      next => simp [Act.Completes]
  | purge =>
      rw [act, trace?_purge hkeys, Option.filter_eq_some_iff]
      simp [Act.Completes, isLive_iff, Trace.touched]

/-- A key is in flight once it has been marked so while no completed request is held, and until
something else is done under the key or a purge finds the mark too old. -/
theorem inFlight_act_iff (hkeys : m.keys.Nodup) {a : Act} {since : Timestamp} :
    (m.act now a).trace? key = some (.inFlight since) ↔
      a = .markInFlight key ∧ now = since ∧
          (∀ request time, m.trace? key ≠ some (.completed request time)) ∨
        m.trace? key = some (.inFlight since) ∧
          ¬ a.Concerns key ∧ (a = .purge → now.since since < m.lifetime) := by
  cases a with
  | markInFlight k =>
      rw [act, trace?_markInFlight]
      split
      next hk =>
        subst hk
        rcases m.trace? key with _ | _ | _ <;> simp [Act.Concerns]
      next hk => simp [Act.Concerns, Ne.symm hk]
  | markCompleted k r =>
      rw [act, trace?_markCompleted]
      split
      next hk => subst hk; simp [Act.Concerns]
      next hk => simp [Act.Concerns, Ne.symm hk]
  | clear k =>
      rw [act, trace?_clear hkeys]
      split
      next hk =>
        subst hk
        rcases m.trace? key with _ | _ | _ <;> simp [Act.Concerns, Trace.isInFlight]
      next hk => simp [Act.Concerns, Ne.symm hk]
  | purge =>
      rw [act, trace?_purge hkeys, Option.filter_eq_some_iff]
      simp [Act.Concerns, isLive_iff, Trace.touched]

theorem completed_after_iff {request : Completed} {time : Timestamp} :
    (after lifetime h).trace? key = some (.completed request time) ↔
      h.Keeps lifetime key time request := by
  induction h using List.reverseRecOn with
  | nil => exact iff_of_false (by simp [after, trace?]) History.not_since_nil
  | append_singleton h e ih =>
      rw [after_concat, completed_act_iff (nodup_after lifetime h), lifetime_after, ih,
        History.keeps_concat, Prod.ext_iff, and_comm (b := e.1 = time)]

/-! ## What is recalled -/

theorem completed?_eq_some_iff {request : Completed} :
    m.completed? now key = some request ↔
      ∃ time, m.trace? key = some (.completed request time) ∧ now.since time < m.lifetime := by
  rw [completed?]
  rcases m.trace? key with _ | _ | ⟨r, time⟩
  · simp
  · simp
  · simp only [isLive_iff, Trace.touched, Option.ite_none_right_eq_some, Option.some.injEq,
      Trace.completed.injEq]
    constructor
    · rintro ⟨hlive, rfl⟩
      exact ⟨time, ⟨rfl, rfl⟩, hlive⟩
    · rintro ⟨time', ⟨rfl, rfl⟩, hlive⟩
      exact ⟨hlive, rfl⟩

namespace History

/-- A purge finds nothing too old that is not too old later on. -/
theorem since_iff_of_live (hclock : Timestamp.Steady (h.times ++ [now]))
    {beginning : History → Prop} {e : Timestamp × Act} {allowed : Timestamp × Act → Prop}
    (hlive : now.since e.1 < lifetime) :
    h.Since beginning e (fun e' => allowed e' ∧ (e'.2 = .purge → e'.1.since e.1 < lifetime)) ↔
      h.Since beginning e allowed := by
  constructor
  · rintro ⟨before, later, heq, hbefore, hlater⟩
    exact ⟨before, later, heq, hbefore, fun e' he' => (hlater e' he').1⟩
  · rintro ⟨before, later, rfl, hbefore, hlater⟩
    refine ⟨before, later, rfl, hbefore, fun e' he' => ⟨hlater e' he', fun _ => ?_⟩⟩
    have hle : e'.1.since e.1 ≤ now.since e.1 := by
      simp only [times, List.map_append, List.map_cons] at hclock
      exact hclock.since_le (List.mem_map_of_mem he')
    exact lt_of_le_of_lt hle hlive

theorem keeps_iff_of_live (hclock : Timestamp.Steady (h.times ++ [now])) {request : Completed}
    {time : Timestamp} (hlive : now.since time < lifetime) :
    h.Keeps lifetime key time request ↔ h.LastCompleted key time request :=
  since_iff_of_live hclock hlive

/-- What does not complete a key makes no difference to its last completion. -/
theorem lastCompleted_insert {before later : History} {e : Timestamp × Act}
    (he : ¬ e.2.Completes key) {time : Timestamp} {request : Completed} :
    LastCompleted (before ++ e :: later) key time request ↔
      LastCompleted (before ++ later) key time request := by
  induction later using List.reverseRecOn with
  | nil =>
      rw [List.append_nil, lastCompleted_concat, and_iff_left he, or_iff_right]
      rintro rfl
      exact he rfl
  | append_singleton later last ih =>
      rw [← List.cons_append, ← List.append_assoc, ← List.append_assoc, lastCompleted_concat,
        lastCompleted_concat, ih]

end History

/-- What is recalled of a key is its last completion, unless that is too old. -/
theorem completed?_after_iff (hclock : Timestamp.Steady (h.times ++ [now])) {request : Completed} :
    (after lifetime h).completed? now key = some request ↔
      ∃ time, h.LastCompleted key time request ∧ now.since time < lifetime := by
  rw [completed?_eq_some_iff, lifetime_after]
  refine exists_congr fun time => ?_
  rw [completed_after_iff]
  exact and_congr_left fun hlive => History.keeps_iff_of_live hclock hlive

/-- What does not complete a key makes no difference to what is recalled of it. -/
theorem completed?_after_insert {before later : History} {e : Timestamp × Act}
    (he : ¬ e.2.Completes key)
    (hclock : Timestamp.Steady (History.times (before ++ e :: later) ++ [now])) :
    (after lifetime (before ++ later)).completed? now key =
      (after lifetime (before ++ e :: later)).completed? now key := by
  -- without that reading, the clock is steady all the more
  have hfewer : (before ++ later).Sublist (before ++ e :: later) :=
    (List.sublist_cons_self e later).append_left before
  have hclock' : Timestamp.Steady (History.times (before ++ later) ++ [now]) :=
    hclock.sublist ((hfewer.map Prod.fst).append_right [now])
  ext request
  rw [completed?_after_iff hclock', completed?_after_iff hclock]
  simp only [History.lastCompleted_insert he]

/-- While the clock does not go back, a memory answers with the last completion of a key as long as
it is not too old, and with nothing otherwise. So whatever else is done, at any time, makes no
difference to the answer. -/
theorem completed_recalled (lifetime : Int) (h : History) (now : Timestamp)
    (hclock : Timestamp.Steady (h.times ++ [now])) (key : String) :
    (∀ request, (after lifetime h).completed? now key = some request ↔
      ∃ time, h.LastCompleted key time request ∧ now.since time < lifetime) ∧
    ∀ before e later, h = before ++ e :: later → ¬ e.2.Completes key →
      (after lifetime (before ++ later)).completed? now key =
        (after lifetime h).completed? now key := by
  refine ⟨fun request => completed?_after_iff hclock, ?_⟩
  rintro before e later rfl he
  exact completed?_after_insert he hclock

/-- If the clock shows no leap second, then it is enough that no reading lies before an earlier
one. -/
theorem completed?_after_of_ordinary {h : History}
    (hordinary : ∀ t ∈ h.times ++ [now], t.Ordinary)
    (hforward : (h.times ++ [now]).Pairwise fun t t' => 0 ≤ t'.since t) (key : String) :
    (∀ request, (after lifetime h).completed? now key = some request ↔
      ∃ time, h.LastCompleted key time request ∧ now.since time < lifetime) ∧
    ∀ before e later, h = before ++ e :: later → ¬ e.2.Completes key →
      (after lifetime (before ++ later)).completed? now key =
        (after lifetime h).completed? now key := by
  have hclock := Timestamp.steady_of_ordinary hordinary hforward
  refine ⟨fun request => completed?_after_iff hclock, ?_⟩
  rintro before e later rfl he
  exact completed?_after_insert he hclock

end Memory

namespace Sample

/-- A second of the first minute of the year. -/
def second (n : Nat) : Timestamp :=
  { Timestamp.start2025 with second := n % 60, second_le := by omega }

/-- A request that has been answered with a text. -/
def answered (text : String) : Completed :=
  ⟨"ACCOUNT_CREATE", .string text⟩

/-- A key is completed, becomes too old and is purged, and is completed once more. -/
def renewal : Memory.History :=
  [(second 0, .markInFlight "key"), (second 1, .markCompleted "key" (answered "old")),
    (second 12, .purge), (second 13, .markInFlight "key"),
    (second 14, .markCompleted "key" (answered "new")), (second 15, .clear "key"),
    (second 16, .markCompleted "other" (answered "other")), (second 17, .markInFlight "key")]

theorem completed_recalled_renewal :
    Timestamp.Steady (renewal.times ++ [second 23]) ∧
      (Memory.after 10000000000 renewal).completed? (second 23) "key" = some (answered "new") ∧
      (Memory.after 10000000000 (renewal.take 7)).completed? (second 23) "key" =
        some (answered "new") := by
  have hclock : Timestamp.Steady (renewal.times ++ [second 23]) := by decide
  obtain ⟨hanswer, hother⟩ := Memory.completed_recalled 10000000000 renewal (second 23) hclock "key"
  have hnew : (Memory.after 10000000000 renewal).completed? (second 23) "key" =
      some (answered "new") := by
    refine (hanswer (answered "new")).mpr ⟨second 14, ⟨renewal.take 4, renewal.drop 5, rfl, trivial,
      ?_⟩, by decide⟩
    simp [renewal, Memory.Act.Completes]
  refine ⟨hclock, hnew, ?_⟩
  exact (hother (renewal.take 7) (second 17, .markInFlight "key") [] rfl nofun).trans hnew

end Sample

end KeyedLedger
