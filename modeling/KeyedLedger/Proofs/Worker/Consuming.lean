import KeyedLedger.Worker.Consumer
import Mathlib.Algebra.GroupWithZero.Nat

/-! # What a consumer does with what it receives

The attempts to subscribe fix what a consumer does until it sees a shutdown: its *course*. For each
attempt it subscribes and hands every event to the handler, once and in the order of arrival,
whatever the handler makes of it; and after each attempt it subscribes again. What has been done and
what is left to do always make up the course. A shutdown cuts the course off where it is seen.
-/

namespace KeyedLedger

variable {α : Type}

/-- The events among what a subscription brings. -/
def eventsOf (items : List (Except BrokerError α)) : List α :=
  items.filterMap Except.toOption

/-- The events that an attempt brings. -/
def Attempted.events : Attempted α → List α
  | fails => []
  | delivers items => eventsOf items

namespace Consumer

/-- The deeds by which events are handled. -/
def handledEach (handler : α → Handling) (events : List α) : List (Deed α) :=
  events.map fun event => .handled event (handler event)

/-- What is done from a subscription on: what an attempt brings is handled, and after a pause the
consumer subscribes again. -/
def course (handler : α → Handling) (pauseLength : Nat) :
    (time : Nat) → List (Attempted α) → List (Deed α)
  | time, [] => [.subscribed time]
  | time, attempt :: rest =>
    .subscribed time ::
      (handledEach handler attempt.events ++ course handler pauseLength (time + pauseLength) rest)

/-- The events that are handled in some deeds. -/
def handledIn (deeds : List (Deed α)) : List α :=
  deeds.filterMap fun
    | .subscribed _ => none
    | .handled event _ => some event

/-- The events that a consumer has still to receive. -/
def pending (c : Consumer α) : List α :=
  let later := c.attempts.flatMap Attempted.events
  match c.wait with
  | .subscription => later
  | .item rest => eventsOf rest ++ later
  | .pause => later
  | .silence => []
  | .stopped => []

/-- What a consumer still has to do. -/
def agenda (handler : α → Handling) (c : Consumer α) : List (Deed α) :=
  match c.wait with
  | .subscription => course handler c.pauseLength c.time c.attempts
  | .item rest =>
    handledEach handler (eventsOf rest) ++
      course handler c.pauseLength (c.time + c.pauseLength) c.attempts
  | .pause => course handler c.pauseLength (c.time + c.pauseLength) c.attempts
  | .silence => []
  | .stopped => []

/-- How many steps a consumer takes until nothing arrives any more. -/
def stepsLeft (c : Consumer α) : Nat :=
  let later := (c.attempts.map stepsOf).sum + 1
  match c.wait with
  | .subscription => later
  | .item rest => rest.length + 2 + later
  | .pause => 1 + later
  | .silence => 0
  | .stopped => 0

/-! ## One step -/

variable (handler : α → Handling) (c : Consumer α)

/-- A step does what comes next. -/
theorem step_agenda :
    (c.step handler).deeds ++ (c.step handler).agenda handler = c.deeds ++ c.agenda handler := by
  obtain ⟨pauseLength, attempts, time, wait, deeds⟩ := c
  cases wait with
  | subscription =>
      rcases attempts with _ | ⟨_ | items, rest⟩
      · exact List.append_nil _
      · exact List.append_assoc ..
      · exact List.append_assoc ..
  | item items =>
      rcases items with _ | ⟨_ | event, rest⟩
      · rfl
      · rfl
      · exact List.append_assoc ..
  | pause => rfl
  | silence => rfl
  | stopped => rfl

theorem step_stepsLeft : (c.step handler).stepsLeft = c.stepsLeft - 1 := by
  obtain ⟨pauseLength, attempts, time, wait, deeds⟩ := c
  cases wait with
  | subscription =>
      rcases attempts with _ | ⟨_ | items, rest⟩
      · rfl
      · simp [step, stepsLeft, note, stepsOf]
        omega
      · simp [step, stepsLeft, note, stepsOf]
        omega
  | item items =>
      rcases items with _ | ⟨_ | event, rest⟩
      · simp [step, stepsLeft]
        omega
      · simp [step, stepsLeft]
        omega
      · simp [step, stepsLeft, note]
        omega
  | pause => simp [step, stepsLeft]
  | silence => rfl
  | stopped => rfl

/-- Only a shutdown stops a consumer. -/
theorem step_wait_ne (h : c.wait ≠ .stopped) : (c.step handler).wait ≠ .stopped := by
  obtain ⟨pauseLength, attempts, time, wait, deeds⟩ := c
  cases wait with
  | subscription => rcases attempts with _ | ⟨_ | items, rest⟩ <;> exact nofun
  | item items => rcases items with _ | ⟨_ | event, rest⟩ <;> exact nofun
  | pause => exact nofun
  | silence => exact nofun
  | stopped => exact absurd rfl h

theorem step_of_stopped (h : c.wait = .stopped) : c.step handler = c := by
  rw [step, h]

theorem agenda_eq_nil (h : c.stepsLeft = 0) : c.agenda handler = [] := by
  obtain ⟨pauseLength, attempts, time, wait, deeds⟩ := c
  cases wait with
  | silence => rfl
  | stopped => rfl
  | _ => simp [stepsLeft] at h

/-- Nothing arrives any more when no step is left. -/
theorem due?_eq_none_iff : c.due? = none ↔ c.stepsLeft = 0 := by
  obtain ⟨pauseLength, attempts, time, wait, deeds⟩ := c
  cases wait <;> simp [due?, stepsLeft]

/-! ## What is handled -/

theorem handledIn_append (deeds later : List (Deed α)) :
    handledIn (deeds ++ later) = handledIn deeds ++ handledIn later :=
  List.filterMap_append

theorem handledIn_handledEach (events : List α) :
    handledIn (handledEach handler events) = events := by
  rw [handledIn, handledEach, List.filterMap_map]
  exact List.filterMap_some

theorem handledIn_course (pauseLength time : Nat) (attempts : List (Attempted α)) :
    handledIn (course handler pauseLength time attempts) =
      attempts.flatMap Attempted.events := by
  induction attempts generalizing time with
  | nil => rfl
  | cons attempt rest ih =>
      rw [course, ← List.singleton_append, handledIn_append, handledIn_append,
        handledIn_handledEach, ih, List.flatMap_cons]
      rfl

/-- The events that are still to come are those that are still to be handled. -/
theorem handledIn_agenda : handledIn (c.agenda handler) = c.pending := by
  obtain ⟨pauseLength, attempts, time, wait, deeds⟩ := c
  cases wait with
  | subscription => exact handledIn_course ..
  | item items =>
      rw [agenda, handledIn_append, handledIn_handledEach, handledIn_course]
      rfl
  | pause => exact handledIn_course ..
  | silence => rfl
  | stopped => rfl

/-! ## Runs -/

/-- What may happen to a consumer: what it waits for comes, or it sees a shutdown. -/
inductive Happening where
  | arrival
  | shutdown
deriving DecidableEq

/-- The consumer after what has happened to it. -/
def after (c : Consumer α) : List Happening → Consumer α
  | [] => c
  | .arrival :: later => (c.step handler).after later
  | .shutdown :: later => c.stop.after later

theorem after_append (before later : List Happening) :
    c.after handler (before ++ later) = (c.after handler before).after handler later := by
  induction before generalizing c with
  | nil => rfl
  | cons h before ih => cases h <;> exact ih _

/-- Until a shutdown, what has been done and what is left to do stay the same together. -/
theorem after_arrivals {run : List Happening} (hrun : .shutdown ∉ run) :
    (c.after handler run).deeds ++ (c.after handler run).agenda handler =
        c.deeds ++ c.agenda handler ∧
      (c.after handler run).stepsLeft = c.stepsLeft - run.length ∧
      (c.wait ≠ .stopped → (c.after handler run).wait ≠ .stopped) := by
  induction run generalizing c with
  | nil => exact ⟨rfl, rfl, id⟩
  | cons h run ih =>
      cases h with
      | shutdown => exact absurd List.mem_cons_self hrun
      | arrival =>
          obtain ⟨hdeeds, hsteps, hwait⟩ :=
            ih (c.step handler) fun h => hrun (List.mem_cons_of_mem _ h)
          refine ⟨hdeeds.trans (c.step_agenda handler), ?_,
            fun h => hwait (c.step_wait_ne handler h)⟩
          rw [after, hsteps, step_stepsLeft, List.length_cons]
          omega

/-- Nothing changes a consumer that has stopped. -/
theorem after_of_stopped (h : c.wait = .stopped) (run : List Happening) :
    c.after handler run = c := by
  induction run with
  | nil => rfl
  | cons happening run ih =>
      cases happening with
      | arrival => rw [after, c.step_of_stopped handler h, ih]
      | shutdown =>
          have hstop : c.stop = c := by
            rw [stop, ← h]
          rw [after, hstop, ih]

/-- A run until a time is a run in which all arrives that is due before that time, and then the
shutdown is seen. -/
theorem runFor_eq_after (deadline : Nat) {fuel : Nat} (hfuel : c.stepsLeft < fuel) :
    ∃ run, .shutdown ∉ run ∧
      c.runFor handler deadline fuel = c.after handler (run ++ [.shutdown]) ∧
      (∀ before later, run = before ++ .arrival :: later →
        ∃ time, (c.after handler before).due? = some time ∧ time < deadline) ∧
      ∀ time, (c.after handler run).due? = some time → deadline ≤ time := by
  induction fuel generalizing c with
  | zero => exact absurd hfuel (Nat.not_lt_zero _)
  | succ fuel ih =>
      rw [runFor]
      split
      next hdue =>
        refine ⟨[], List.not_mem_nil, rfl, fun before later h => ?_, fun time h => ?_⟩
        · exact absurd h.symm (by simp)
        · exact nomatch hdue.symm.trans h
      next time hdue =>
        split
        next hbefore =>
          have hpos : c.stepsLeft ≠ 0 := by
            rw [Ne, ← due?_eq_none_iff, hdue]
            exact nofun
          have hleft : (c.step handler).stepsLeft < fuel := by
            rw [step_stepsLeft]
            omega
          obtain ⟨run, hrun, heq, hdone, hrest⟩ := ih (c.step handler) hleft
          refine ⟨.arrival :: run, ?_, heq, ?_, hrest⟩
          · rw [List.mem_cons, not_or]
            exact ⟨nofun, hrun⟩
          · rintro (_ | ⟨first, before⟩) later h
            · exact ⟨time, hdue, hbefore⟩
            · obtain ⟨hfirst, hothers⟩ := List.cons.inj h
              subst hfirst
              exact hdone before later hothers
        next hlate =>
          refine ⟨[], List.not_mem_nil, rfl, fun before later h => ?_, fun time' h => ?_⟩
          · exact absurd h.symm (by simp)
          · cases hdue.symm.trans h
            exact Nat.le_of_not_lt hlate

theorem foldl_add (n : Nat) (ns : List Nat) : ns.foldl Nat.add n = n + ns.sum := by
  induction ns generalizing n with
  | nil => rfl
  | cons m ns ih => rw [List.foldl_cons, ih, List.sum_cons, Nat.add_eq, Nat.add_assoc]

theorem after_shutdown (before later : List Happening) :
    c.after handler (before ++ .shutdown :: later) = (c.after handler before).stop := by
  rw [after_append, after, after_of_stopped]
  rfl

/-- How a consumer takes what it receives. -/
structure Consumes (c : Consumer α) : Prop where
  /-- Until a shutdown the consumer goes on: the events that it has handled, one for one and in
  their order, are those that have come. -/
  goes_on : ∀ run, .shutdown ∉ run →
    (c.after handler run).wait ≠ .stopped ∧
    handledIn (c.after handler run).deeds ++ (c.after handler run).pending =
      c.attempts.flatMap Attempted.events
  /-- What it does is its course, as far as it has come: a subscription for each attempt, each of
  them followed by another one. -/
  on_course : ∀ run,
    (c.after handler run).deeds <+: course handler c.pauseLength c.time c.attempts
  /-- Every event is handled and every attempt made in so many steps. -/
  completes : ∀ run, .shutdown ∉ run → (c.attempts.map stepsOf).sum + 1 ≤ run.length →
    (c.after handler run).deeds = course handler c.pauseLength c.time c.attempts
  /-- After a shutdown nothing is done, whatever happens then. -/
  stops : ∀ before later,
    (c.after handler (before ++ .shutdown :: later)).wait = .stopped ∧
    (c.after handler (before ++ .shutdown :: later)).deeds = (c.after handler before).deeds ∧
    handledIn (c.after handler (before ++ .shutdown :: later)).deeds <+:
      c.attempts.flatMap Attempted.events
  /-- A shutdown that is signalled at a time is seen when all is done that is due before. -/
  until_deadline : ∀ deadline, ∃ run, .shutdown ∉ run ∧
    c.runUntil handler deadline = c.after handler (run ++ [.shutdown]) ∧
    (∀ before later, run = before ++ .arrival :: later →
      ∃ time, (c.after handler before).due? = some time ∧ time < deadline) ∧
    ∀ time, (c.after handler run).due? = some time → deadline ≤ time

/-- A consumer hands every event that it receives to the handler, once and in order, whatever
becomes of it, and subscribes again after every attempt, until it sees a shutdown. -/
theorem consumes (pauseLength : Nat) (attempts : List (Attempted α)) :
    Consumes handler { pauseLength, attempts } := by
  let c : Consumer α := { pauseLength, attempts }
  have hcourse : ∀ run, .shutdown ∉ run →
      (c.after handler run).deeds ++ (c.after handler run).agenda handler =
        course handler pauseLength 0 attempts :=
    fun run hrun => (c.after_arrivals handler hrun).1
  have hprefix : ∀ run,
      (c.after handler run).deeds <+: course handler pauseLength 0 attempts := by
    intro run
    by_cases hrun : .shutdown ∈ run
    · obtain ⟨before, later, rfl, hbefore⟩ := List.eq_append_cons_of_mem hrun
      rw [after_shutdown]
      exact ⟨_, hcourse before hbefore⟩
    · exact ⟨_, hcourse run hrun⟩
  have hhandled : ∀ run, handledIn (c.after handler run).deeds <+:
      attempts.flatMap Attempted.events := by
    intro run
    obtain ⟨rest, hrest⟩ := hprefix run
    refine ⟨handledIn rest, ?_⟩
    rw [← handledIn_append, hrest, handledIn_course]
  refine ⟨fun run hrun => ?_, hprefix, fun run hrun hlong => ?_, fun before later => ?_,
    fun deadline => ?_⟩
  · refine ⟨(c.after_arrivals handler hrun).2.2 nofun, ?_⟩
    rw [← handledIn_agenda handler, ← handledIn_append, hcourse run hrun, handledIn_course]
  · have hsteps : (c.after handler run).stepsLeft = 0 := by
      rw [(c.after_arrivals handler hrun).2.1]
      exact Nat.sub_eq_zero_of_le hlong
    have hall := hcourse run hrun
    rwa [agenda_eq_nil handler _ hsteps, List.append_nil] at hall
  · refine ⟨?_, ?_, hhandled _⟩
    · rw [after_shutdown]
      rfl
    · rw [after_shutdown]
      rfl
  · apply runFor_eq_after
    rw [foldl_add]
    change (attempts.map stepsOf).sum + 1 < 2 + (attempts.map stepsOf).sum
    omega

end Consumer

end KeyedLedger
