import KeyedLedger.Proofs.Gateway.Recall

/-! # What purges change

Nothing that is too old is ever recalled, so a purge of it changes no answer, as long as nothing is
done under its key. A completion that is too old and has not been purged stands in the way of a mark
in flight, though: the mark is lost, and the key is not known although it is in flight. With a purge
before the mark it is known. Apart from these keys, purges go unnoticed.
-/

namespace KeyedLedger

namespace Memory

variable {m : Memory} {now : Timestamp} {key : String} {lifetime : Int}

/-- A key is known if its completed request is recalled, or if it is in flight and not for too
long. -/
theorem isKnown_iff : m.isKnown now key = true ↔
    (∃ request, m.completed? now key = some request) ∨
      ∃ since, m.trace? key = some (.inFlight since) ∧ now.since since < m.lifetime := by
  simp only [completed?_eq_some_iff, isKnown]
  rcases m.trace? key with _ | since | ⟨request, time⟩
  · simp
  · simp [isLive_iff, Trace.touched]
  · simp [isLive_iff, Trace.touched]

/-- Only a purge drops the trace of a key under which nothing is done. -/
theorem trace?_after_append (lifetime : Int) (h : History) {later : History}
    (hlater : ∀ e ∈ later, ¬ e.2.Concerns key) :
    (after lifetime (h ++ later)).trace? key = (after lifetime h).trace? key ∨
      (after lifetime (h ++ later)).trace? key = none := by
  induction later using List.reverseRecOn with
  | nil => exact .inl (by rw [List.append_nil])
  | append_singleton later e ih =>
      rw [← List.append_assoc, after_concat]
      have hkeys := nodup_after lifetime (h ++ later)
      have hsame := ih fun e' he' => hlater e' (List.mem_append_left _ he')
      by_cases hpurge : e.2 = .purge
      · rw [hpurge, act, trace?_purge hkeys]
        cases hleft : ((after lifetime (h ++ later)).trace? key).filter
          ((after lifetime (h ++ later)).isLive e.1) with
        | none => exact .inr rfl
        | some t => rwa [(Option.filter_eq_some_iff.mp hleft).1] at hsame
      · have he := hlater e (List.mem_append_right later (List.mem_singleton_self e))
        rwa [trace?_act_of_not_concerns hkeys he hpurge]

namespace History

/-- A key has been marked in flight while no completion of it was kept, and nothing else has been
done under it since. -/
def Marked (h : History) (lifetime : Int) (key : String) (since : Timestamp) : Prop :=
  h.Since (fun before => ∀ time request, ¬ before.Keeps lifetime key time request)
    (since, .markInFlight key) fun e => ¬ e.2.Concerns key

/-- The last completion of a key is kept although it is too old. -/
def Lingers (h : History) (lifetime : Int) (now : Timestamp) (key : String) : Prop :=
  ∃ time request, h.Keeps lifetime key time request ∧ lifetime ≤ now.since time

theorem lingers_iff_trace? {h : History} : h.Lingers lifetime now key ↔
    ∃ time request, (after lifetime h).trace? key = some (.completed request time) ∧
      lifetime ≤ now.since time := by
  simp only [Lingers, completed_after_iff]

end History

theorem inFlight_after_iff {h : History} {since : Timestamp} :
    (after lifetime h).trace? key = some (.inFlight since) ↔
      h.Since (fun before => ∀ time request, ¬ before.Keeps lifetime key time request)
        (since, .markInFlight key)
        fun e => ¬ e.2.Concerns key ∧ (e.2 = .purge → e.1.since since < lifetime) := by
  induction h using List.reverseRecOn with
  | nil => exact iff_of_false (by simp [after, trace?]) History.not_since_nil
  | append_singleton h e ih =>
      rw [after_concat, inFlight_act_iff (nodup_after lifetime h), lifetime_after, ih,
        History.since_concat, Prod.ext_iff, ← and_assoc, and_comm (b := e.1 = since)]
      simp only [ne_eq, completed_after_iff]
      rw [forall_comm]

/-- A key is known if its last completion is recalled, or if it is in flight and not for too
long. -/
theorem isKnown_after_iff {h : History} (hclock : Timestamp.Steady (h.times ++ [now])) :
    (after lifetime h).isKnown now key = true ↔
      (∃ request, (after lifetime h).completed? now key = some request) ∨
        ∃ since, h.Marked lifetime key since ∧ now.since since < lifetime := by
  rw [isKnown_iff, lifetime_after]
  refine or_congr_right (exists_congr fun since => and_congr_left fun hlive => ?_)
  rw [inFlight_after_iff]
  exact History.since_iff_of_live hclock hlive

namespace History

/-- The second history is the first one with purges in between. -/
inductive Purged : History → History → Prop
  | nil : Purged [] []
  | act (e : Timestamp × Act) {h h' : History} : Purged h h' → Purged (e :: h) (e :: h')
  | purge (time : Timestamp) {h h' : History} : Purged h h' → Purged h ((time, .purge) :: h')

namespace Purged

variable {h h' : History} {e : Timestamp × Act}

theorem sublist (hp : Purged h h') : h.Sublist h' := by
  induction hp with
  | nil => exact List.Sublist.slnil
  | act e _ ih => exact ih.cons_cons e
  | purge time _ ih => exact ih.cons _

theorem steady (hp : Purged h h') (hclock : Timestamp.Steady (h'.times ++ [now])) :
    Timestamp.Steady (h.times ++ [now]) :=
  hclock.sublist ((hp.sublist.map Prod.fst).append_right [now])

theorem mem_or_purge (hp : Purged h h') (he : e ∈ h') : e ∈ h ∨ e.2 = .purge := by
  induction hp with
  | nil => exact .inl he
  | act e' _ ih =>
      rcases List.mem_cons.mp he with rfl | he
      · exact .inl List.mem_cons_self
      · exact (ih he).imp_left (List.mem_cons_of_mem e')
  | purge time _ ih =>
      rcases List.mem_cons.mp he with rfl | he
      · exact .inr rfl
      · exact ih he

/-- What is done in the first history is done in the second. -/
theorem split {before later : History} (hp : Purged h h') (heq : h = before ++ e :: later) :
    ∃ before' later', h' = before' ++ e :: later' ∧ Purged before before' ∧
      Purged later later' := by
  induction hp generalizing before with
  | nil => simp at heq
  | act e' hp ih =>
      cases before with
      | nil =>
          obtain ⟨rfl, rfl⟩ := List.cons_eq_cons.mp heq
          exact ⟨[], _, rfl, .nil, hp⟩
      | cons first before =>
          obtain ⟨rfl, rfl⟩ := List.cons_eq_cons.mp heq
          obtain ⟨before', later', rfl, hbefore, hlater⟩ := ih rfl
          exact ⟨e' :: before', later', rfl, hbefore.act e', hlater⟩
  | purge time _ ih =>
      obtain ⟨before', later', rfl, hbefore, hlater⟩ := ih heq
      exact ⟨(time, .purge) :: before', later', rfl, hbefore.purge time, hlater⟩

/-- What is done in the second history is done in the first, but for purges. -/
theorem split' {before' later' : History} (hp : Purged h h') (he : e.2 ≠ .purge)
    (heq : h' = before' ++ e :: later') :
    ∃ before later, h = before ++ e :: later ∧ Purged before before' ∧ Purged later later' := by
  induction hp generalizing before' with
  | nil => simp at heq
  | act e' hp ih =>
      cases before' with
      | nil =>
          obtain ⟨rfl, rfl⟩ := List.cons_eq_cons.mp heq
          exact ⟨[], _, rfl, .nil, hp⟩
      | cons first before' =>
          obtain ⟨rfl, rfl⟩ := List.cons_eq_cons.mp heq
          obtain ⟨before, later, rfl, hbefore, hlater⟩ := ih rfl
          exact ⟨e' :: before, later, rfl, hbefore.act e', hlater⟩
  | purge time hp ih =>
      cases before' with
      | nil =>
          obtain ⟨rfl, rfl⟩ := List.cons_eq_cons.mp heq
          exact absurd rfl he
      | cons first before' =>
          obtain ⟨rfl, rfl⟩ := List.cons_eq_cons.mp heq
          obtain ⟨before, later, rfl, hbefore, hlater⟩ := ih rfl
          exact ⟨before, later, rfl, hbefore.purge time, hlater⟩

/-- What has been done since something is still all that has been done, if purges are allowed. -/
theorem since (hp : Purged h h') {beginning beginning' : History → Prop}
    {allowed : Timestamp × Act → Prop}
    (hbeginning : ∀ before before', Purged before before' → beginning before → beginning' before')
    (hpurge : ∀ time, allowed (time, .purge)) (hsince : h.Since beginning e allowed) :
    h'.Since beginning' e allowed := by
  obtain ⟨before, later, heq, hbefore, hallowed⟩ := hsince
  obtain ⟨before', later', heq', hbefore', hlater'⟩ := hp.split heq
  refine ⟨before', later', heq', hbeginning before before' hbefore' hbefore, ?_⟩
  rintro ⟨time, a⟩ he'
  rcases hlater'.mem_or_purge he' with hmem | rfl
  · exact hallowed _ hmem
  · exact hpurge time

/-- Without some purges, less has been done since. -/
theorem since' (hp : Purged h h') (he : e.2 ≠ .purge) {allowed : Timestamp × Act → Prop}
    (hsince : h'.Since (fun _ => True) e allowed) : h.Since (fun _ => True) e allowed := by
  obtain ⟨before', later', heq', -, hallowed⟩ := hsince
  obtain ⟨before, later, heq, -, hlater⟩ := hp.split' he heq'
  exact ⟨before, later, heq, trivial, fun e' he' => hallowed e' (hlater.sublist.mem he')⟩

theorem lastCompleted_iff (hp : Purged h h') {time : Timestamp} {request : Completed} :
    h'.LastCompleted key time request ↔ h.LastCompleted key time request :=
  ⟨hp.since' (by simp), hp.since (fun _ _ _ _ => trivial) fun _ => id⟩

theorem keeps (hp : Purged h h') {time : Timestamp} {request : Completed}
    (hkeeps : h'.Keeps lifetime key time request) : h.Keeps lifetime key time request :=
  hp.since' (by simp) hkeeps

theorem marked (hp : Purged h h') {since : Timestamp} (hmarked : h.Marked lifetime key since) :
    h'.Marked lifetime key since :=
  hp.since (fun _ _ hbefore hnone time request hkeeps => hnone time request (hbefore.keeps hkeeps))
    (fun _ => id) hmarked

theorem completed?_eq (hp : Purged h h') (hclock : Timestamp.Steady (h'.times ++ [now])) :
    (after lifetime h').completed? now key = (after lifetime h).completed? now key := by
  ext request
  rw [completed?_after_iff hclock, completed?_after_iff (hp.steady hclock)]
  simp only [hp.lastCompleted_iff]

theorem isKnown (hp : Purged h h') (hclock : Timestamp.Steady (h'.times ++ [now]))
    (hknown : (after lifetime h).isKnown now key = true) :
    (after lifetime h').isKnown now key = true := by
  rw [isKnown_after_iff (hp.steady hclock)] at hknown
  rw [isKnown_after_iff hclock, hp.completed?_eq hclock]
  exact hknown.imp_right fun ⟨since, hmarked, hlive⟩ => ⟨since, hp.marked hmarked, hlive⟩

end Purged

/-- In both histories a mark in flight, not too old, is the last that has been done under the key.
In the first one a completion that was too old lingered then, in the second one it had been
purged. -/
def LosesMark (h h' : History) (lifetime : Int) (now : Timestamp) (key : String) : Prop :=
  ∃ before before' since later later',
    h = before ++ (since, .markInFlight key) :: later ∧
    h' = before' ++ (since, .markInFlight key) :: later' ∧
    Purged before before' ∧ Purged later later' ∧
    (∀ e ∈ later, ¬ e.2.Concerns key) ∧ now.since since < lifetime ∧
    before.Lingers lifetime since key ∧ ¬ before'.Lingers lifetime since key

variable {h h' : History}

theorem steady_before {before later : History} {e : Timestamp × Act}
    (hclock : Timestamp.Steady (times (before ++ e :: later) ++ [now])) :
    Timestamp.Steady (before.times ++ [e.1]) := by
  refine hclock.sublist ?_
  simp only [times, List.map_append, List.map_cons, List.append_assoc, List.cons_append]
  exact ((List.nil_sublist _).cons_cons e.1).append_left _

/-- What is kept in the one history and no longer in the other is too old. -/
theorem lingers_of_purged (hp : Purged h h') (hclock : Timestamp.Steady (h'.times ++ [now]))
    {time : Timestamp} {request : Completed} (hkeeps : h.Keeps lifetime key time request)
    (hnone : ¬ h'.Keeps lifetime key time request) : h.Lingers lifetime now key := by
  refine ⟨time, request, hkeeps, Int.not_lt.mp fun hlive => hnone ?_⟩
  rw [keeps_iff_of_live hclock hlive, hp.lastCompleted_iff]
  exact (keeps_iff_of_live (hp.steady hclock) hlive).mp hkeeps

/-- Nothing is kept of a key of which nothing lingers, if in a history with fewer purges something
does. -/
theorem not_keeps_of_purged (hp : Purged h h') (hlingers : h.Lingers lifetime now key)
    (hnot : ¬ h'.Lingers lifetime now key) (time : Timestamp) (request : Completed) :
    ¬ h'.Keeps lifetime key time request := by
  intro hkeeps
  obtain ⟨time', request', hkeeps', hold⟩ := hlingers
  -- a key has one trace, so both histories keep the same completion
  have htrace := completed_after_iff.mpr (hp.keeps hkeeps)
  rw [completed_after_iff.mpr hkeeps', Option.some.injEq, Trace.completed.injEq] at htrace
  obtain ⟨rfl, rfl⟩ := htrace
  exact hnot ⟨time', request', hkeeps, hold⟩

/-- A mark in flight is lost on a completion that lingers. -/
theorem not_isKnown_of_lingers {before later : History} {since : Timestamp}
    (hclock : Timestamp.Steady
      (times (before ++ (since, .markInFlight key) :: later) ++ [now]))
    (hlingers : before.Lingers lifetime since key) (hlater : ∀ e ∈ later, ¬ e.2.Concerns key) :
    (after lifetime (before ++ (since, .markInFlight key) :: later)).isKnown now key = false := by
  obtain ⟨time, request, hkeeps, hold⟩ := hlingers
  have hmark : (after lifetime (before ++ [(since, .markInFlight key)])).trace? key =
      some (.completed request time) := by
    rw [after_concat, act, trace?_markInFlight, if_pos rfl, completed_after_iff.mpr hkeeps]
  have htooOld : lifetime ≤ now.since time := by
    obtain ⟨first, middle, rfl, -⟩ := hkeeps
    have hreadings : Timestamp.Steady (first.map Prod.fst ++
        time :: (middle.map Prod.fst ++ since :: later.map Prod.fst) ++ [now]) := by
      simpa [times] using hclock
    exact hold.trans (hreadings.since_le (by simp))
  rw [List.append_cons, isKnown]
  rcases trace?_after_append lifetime (before ++ [(since, .markInFlight key)]) hlater with
    hsame | hnone
  · rw [hsame, hmark, Option.any_some, isLive, lifetime_after]
    exact decide_eq_false (Int.not_lt.mpr htooOld)
  · rw [hnone, Option.any_none]

/-- A key that is known only with the purges has lost a mark without them. -/
theorem losesMark_of_isKnown (hp : Purged h h') (hclock : Timestamp.Steady (h'.times ++ [now]))
    (hknown' : (after lifetime h').isKnown now key = true)
    (hunknown : (after lifetime h).isKnown now key = false) : LosesMark h h' lifetime now key := by
  have hnot : ¬ (after lifetime h).isKnown now key = true := ne_true_of_eq_false hunknown
  rw [isKnown_after_iff (hp.steady hclock), not_or] at hnot
  rw [isKnown_after_iff hclock, hp.completed?_eq hclock] at hknown'
  obtain ⟨since, ⟨before', later', rfl, hnone, hquiet⟩, hlive⟩ := hknown'.resolve_left hnot.1
  obtain ⟨before, later, rfl, hbefore, hlater⟩ := hp.split' (by simp) rfl
  have hquiet' : ∀ e ∈ later, ¬ e.2.Concerns key := fun e he =>
    hquiet e (hlater.sublist.mem he)
  -- the mark has been lost, so something was kept
  have hkept : ∃ time request, before.Keeps lifetime key time request := by
    by_contra hnone'
    push Not at hnone'
    exact hnot.2 ⟨since, ⟨before, later, rfl, hnone', hquiet'⟩, hlive⟩
  obtain ⟨time, request, hkeeps⟩ := hkept
  refine ⟨before, before', since, later, later', rfl, rfl, hbefore, hlater, hquiet', hlive, ?_, ?_⟩
  · exact lingers_of_purged hbefore (steady_before hclock) hkeeps (hnone time request)
  · rintro ⟨time, request, hkeeps, -⟩
    exact hnone time request hkeeps

theorem LosesMark.isKnown (h : LosesMark h h' lifetime now key)
    (hclock : Timestamp.Steady (h'.times ++ [now])) :
    (after lifetime h').isKnown now key = true := by
  obtain ⟨before, before', since, later, later', rfl, rfl, hbefore, hlater, hquiet, hlive,
    hlingers, hnot⟩ := h
  rw [isKnown_after_iff hclock]
  refine .inr ⟨since, ⟨before', later', rfl, not_keeps_of_purged hbefore hlingers hnot, ?_⟩, hlive⟩
  rintro ⟨time, a⟩ he
  rcases hlater.mem_or_purge he with hmem | rfl
  · exact hquiet _ hmem
  · exact id

/-- A mark that is lost in the one history and not in the other is all that tells them apart. -/
theorem losesMark_iff (hp : Purged h h') (hclock : Timestamp.Steady (h'.times ++ [now])) :
    (after lifetime h').isKnown now key = true ∧ (after lifetime h).isKnown now key = false ↔
      LosesMark h h' lifetime now key := by
  refine ⟨fun ⟨hknown', hunknown⟩ => losesMark_of_isKnown hp hclock hknown' hunknown,
    fun hlost => ⟨hlost.isKnown hclock, ?_⟩⟩
  obtain ⟨before, -, since, later, -, rfl, -, -, -, hquiet, -, hlingers, -⟩ := hlost
  exact not_isKnown_of_lingers (hp.steady hclock) hlingers hquiet

end History

/-- A mark in flight shows at once, unless a completion that is too old is still there. -/
theorem isKnown_markInFlight_iff (hlifetime : 0 < m.lifetime) :
    (m.markInFlight now key).isKnown now key = true ↔
      ¬ ∃ time request, m.trace? key = some (.completed request time) ∧
        m.lifetime ≤ now.since time := by
  have hkept : (m.markInFlight now key).lifetime = m.lifetime :=
    lifetime_act m now (.markInFlight key)
  rw [isKnown, trace?_markInFlight, if_pos rfl]
  rcases m.trace? key with _ | since | ⟨request, time⟩
  · simpa [isLive, hkept, Trace.touched, Timestamp.since_self] using hlifetime
  · simpa [isLive, hkept, Trace.touched, Timestamp.since_self] using hlifetime
  · simp [isLive, hkept, Trace.touched]

/-- While the clock does not go back, purges change no answer about completed requests, and no key
is known any less for them. A key is known only with the purges exactly if a mark in flight has been
lost without them, on a completion that was too old. A mark in flight shows at once unless it is
lost in this way. -/
theorem purges_observed (lifetime : Int) (hlifetime : 0 < lifetime) (h h' : History)
    (hp : History.Purged h h') (now : Timestamp)
    (hclock : Timestamp.Steady (h'.times ++ [now])) (key : String) :
    (after lifetime h').completed? now key = (after lifetime h).completed? now key ∧
    ((after lifetime h).isKnown now key = true → (after lifetime h').isKnown now key = true) ∧
    ((after lifetime h').isKnown now key = true ∧ (after lifetime h).isKnown now key = false ↔
      History.LosesMark h h' lifetime now key) ∧
    (((after lifetime h).markInFlight now key).isKnown now key = true ↔
      ¬ h.Lingers lifetime now key) := by
  refine ⟨hp.completed?_eq hclock, hp.isKnown hclock, History.losesMark_iff hp hclock, ?_⟩
  have hpositive : 0 < (after lifetime h).lifetime := hlifetime.trans_eq (lifetime_after _ _).symm
  rw [isKnown_markInFlight_iff hpositive, lifetime_after, History.lingers_iff_trace?]

/-- If the clock shows no leap second, then it is enough that no reading lies before an earlier
one. -/
theorem isKnown_after_of_ordinary {h h' : History} (hp : History.Purged h h')
    (hordinary : ∀ t ∈ h'.times ++ [now], t.Ordinary)
    (hforward : (h'.times ++ [now]).Pairwise fun t t' => 0 ≤ t'.since t) (key : String) :
    (after lifetime h').completed? now key = (after lifetime h).completed? now key ∧
    ((after lifetime h).isKnown now key = true → (after lifetime h').isKnown now key = true) ∧
    ((after lifetime h').isKnown now key = true ∧ (after lifetime h).isKnown now key = false ↔
      History.LosesMark h h' lifetime now key) := by
  have hclock := Timestamp.steady_of_ordinary hordinary hforward
  exact ⟨hp.completed?_eq hclock, hp.isKnown hclock, History.losesMark_iff hp hclock⟩

end Memory

namespace Sample

/-- A completed key is marked in flight when the completion has just become too old. -/
def stale : Memory.History :=
  [(second 0, .markCompleted "key" (answered "old")), (second 1, .markInFlight "key")]

/-- The same, with a purge before the mark. -/
def swept : Memory.History :=
  [(second 0, .markCompleted "key" (answered "old")), (second 1, .purge),
    (second 1, .markInFlight "key")]

theorem purged_stale : Memory.History.Purged stale swept :=
  .act _ (.purge _ (.act _ .nil))

/-- Without the purge the completion lingers, with it nothing is kept. -/
theorem losesMark_stale : Memory.History.LosesMark stale swept 1000000000 (second 1) "key" := by
  refine ⟨stale.take 1, swept.take 2, second 1, [], [], rfl, rfl, .act _ (.purge _ .nil), .nil,
    nofun, by decide, ?_, ?_⟩
  · exact ⟨second 0, answered "old", ⟨[], [], rfl, trivial, nofun⟩, by decide⟩
  · rw [Memory.History.lingers_iff_trace?]
    rintro ⟨time, request, htrace, -⟩
    cases htrace

theorem purges_observed_stale :
    0 < (1000000000 : Int) ∧ Memory.History.Purged stale swept ∧
      Timestamp.Steady (swept.times ++ [second 1]) ∧
      (Memory.after 1000000000 stale).isKnown (second 1) "key" = false ∧
      (Memory.after 1000000000 swept).isKnown (second 1) "key" = true ∧
      ((Memory.after 1000000000 (stale.take 1)).markInFlight (second 1) "key").isKnown (second 1)
        "key" = false := by
  have hclock : Timestamp.Steady (swept.times ++ [second 1]) := by decide
  obtain ⟨-, -, hlost, -⟩ := Memory.purges_observed 1000000000 (by decide) stale swept purged_stale
    (second 1) hclock "key"
  obtain ⟨hswept, hstale⟩ := hlost.mpr losesMark_stale
  exact ⟨by decide, purged_stale, hclock, hstale, hswept, hstale⟩

end Sample

end KeyedLedger
