import KeyedLedger.Proofs.Gateway.Keys

/-! # What happens to slots

Joining, resolving and leaving change the slot of their own key and no other. No key ever has two
slots, and the gauge shows how many slots there are whenever somebody has joined or left.
-/

namespace KeyedLedger

namespace Waiting

/-- The keys that have a slot. -/
def keys (w : Waiting) : List String :=
  w.slots.map Prod.fst

/-! ## The slot of a key -/

theorem lookup_cons_ite {α β : Type} [DecidableEq α] (k j : α) (b : β) (rest : List (α × β)) :
    ((j, b) :: rest).lookup k = if k = j then some b else rest.lookup k := by
  rw [List.lookup_cons]
  by_cases h : k = j
  · rw [if_pos h, h, beq_self_eq_true]
  · rw [if_neg h, beq_false_of_ne h]

theorem lookup_filter_ne {α β : Type} [DecidableEq α] (entries : List (α × β)) (key k : α) :
    (entries.filter fun s => s.1 ≠ key).lookup k = if k = key then none else entries.lookup k := by
  induction entries with
  | nil => simp
  | cons head rest ih =>
      rcases head with ⟨j, entry⟩
      by_cases hj : j = key
      · subst hj
        rw [List.filter_cons_of_neg (by simp), ih]
        rw [lookup_cons_ite]
        split <;> rfl
      · rw [List.filter_cons_of_pos (by simpa using hj), lookup_cons_ite, lookup_cons_ite, ih]
        by_cases hk : k = j
        · rw [if_pos hk, if_pos hk, if_neg (hk ▸ hj)]
        · rw [if_neg hk, if_neg hk]

theorem lookup_map {α β : Type} [DecidableEq α] (g : α → β → β) (entries : List (α × β)) (k : α) :
    (entries.map fun (j, b) => (j, g j b)).lookup k = (entries.lookup k).map (g k) := by
  induction entries with
  | nil => rfl
  | cons head rest ih =>
      rcases head with ⟨j, b⟩
      rw [List.map_cons, lookup_cons_ite, lookup_cons_ite, ih]
      split
      next h => rw [h]; rfl
      next => rfl

theorem slot?_update (w : Waiting) (key k : String) (f : Slot → Slot) :
    (w.update key f).slot? k = if k = key then (w.slot? key).map f else w.slot? k := by
  rw [slot?, slot?, slot?]
  refine (lookup_map (fun j slot => if j = key then f slot else slot) w.slots k).trans ?_
  split
  next hk => rw [hk]
  next => rw [Option.map_id']

theorem slot?_join (w : Waiting) (key k : String) :
    (w.join key).2.slot? k =
      if k = key then
        some ((w.slot? key).elim {} fun slot => { slot with waiters := slot.waiters + 1 })
      else w.slot? k := by
  rw [join]
  split
  next slot hslot => rw [slot?_update, hslot]; rfl
  next hslot =>
    rw [slot?] at hslot
    simp only [slot?, List.lookup_append, hslot]
    split
    next hk => subst hk; simp [hslot, List.lookup_cons_self]
    next hk => simp [lookup_cons_ite, hk]

theorem slot?_resolve (w : Waiting) (key k : String) (r : Resolution) :
    (w.resolve key r).2.slot? k =
      if k = key then
        (w.slot? key).map fun slot => { slot with resolution := slot.resolution.or (some r) }
      else w.slot? k := by
  rw [resolve]
  split
  next n hslot => rw [slot?_update, hslot]; rfl
  next hslot =>
    split
    next hk =>
      subst hk
      rcases hk : w.slot? k with _ | ⟨_ | first, n⟩
      · rfl
      · exact absurd hk (hslot n)
      · rfl
    next => rfl

theorem slot?_leave (w : Waiting) (key k : String) :
    (w.leave key).slot? k =
      if k = key then
        (w.slot? key).bind fun slot =>
          if slot.waiters ≤ 1 then none else some { slot with waiters := slot.waiters - 1 }
      else w.slot? k := by
  rw [leave]
  split
  next hslot =>
    split
    next hk => rw [hk, hslot]; rfl
    next => rfl
  next slot hslot =>
    rw [hslot, Option.bind_some]
    split
    next => exact lookup_filter_ne w.slots key k
    next => rw [slot?_update, hslot]; rfl

/-! ## What those who wait see -/

theorem outcome?_join (w : Waiting) (key k : String) :
    (w.join key).2.outcome? k = w.outcome? k := by
  rw [outcome?, outcome?, slot?_join]
  split
  next hk =>
    subst hk
    cases w.slot? k <;> rfl
  next => rfl

theorem outcome?_resolve (w : Waiting) (key k : String) (r : Resolution) :
    (w.resolve key r).2.outcome? k = w.outcome? k ∨
      k = key ∧ (w.resolve key r).2.outcome? k = some r := by
  rw [outcome?, outcome?, slot?_resolve]
  split
  next hk =>
    subst hk
    rcases w.slot? k with _ | ⟨_ | first, n⟩
    · exact .inl rfl
    · exact .inr ⟨rfl, rfl⟩
    · exact .inl rfl
  next => exact .inl rfl

theorem outcome?_leave (w : Waiting) (key k : String) :
    (w.leave key).outcome? k = w.outcome? k ∨ (w.leave key).outcome? k = none := by
  rw [outcome?, outcome?, slot?_leave]
  split
  next hk =>
    subst hk
    rcases w.slot? k with _ | slot
    · exact .inl rfl
    · rw [Option.bind_some]
      split
      · exact .inr rfl
      · exact .inl rfl
  next => exact .inl rfl

/-! ## What joining and resolving report -/

/-- The first to come publishes, and the others do not. -/
theorem join_fst_eq_publisher {w : Waiting} {key : String} :
    (w.join key).1 = .publisher ↔ w.slot? key = none := by
  rw [join]
  split <;> simp_all

theorem join_fst_eq_attached {w : Waiting} {key : String} :
    (w.join key).1 = .attached ↔ (w.slot? key).isSome := by
  rw [join]
  split <;> simp_all

/-- A resolution is taken by a slot that has none. -/
theorem resolve_fst_eq_true {w : Waiting} {key : String} {r : Resolution} :
    (w.resolve key r).1 = true ↔ ∃ n, w.slot? key = some ⟨none, n⟩ := by
  rw [resolve]
  split
  next n hslot => simp [hslot]
  next hslot => simpa using hslot

theorem resolve_of_false {w : Waiting} {key : String} {r : Resolution}
    (h : (w.resolve key r).1 = false) : (w.resolve key r).2 = w := by
  rw [resolve] at h ⊢
  split at h
  · cases h
  · rfl

/-! ## One slot for one key -/

theorem keys_update (w : Waiting) (key : String) (f : Slot → Slot) :
    (w.update key f).keys = w.keys := by
  simp [keys, update]

theorem slot?_eq_none {w : Waiting} {key : String} : w.slot? key = none ↔ key ∉ w.keys := by
  rw [slot?, keys, List.lookup_eq_none_iff]
  simp only [List.mem_map, Prod.exists, exists_and_right, exists_eq_right, not_exists]
  constructor
  · intro h slot hmem
    simpa using h _ hmem
  · rintro h ⟨k, slot⟩ hmem
    rw [bne_iff_ne]
    rintro rfl
    exact h slot hmem

theorem nodup_join {w : Waiting} (h : w.keys.Nodup) (key : String) :
    (w.join key).2.keys.Nodup := by
  rw [join]
  split
  next => rwa [keys_update]
  next hslot =>
    have hnew : (w.keys ++ [key]).Nodup :=
      List.nodup_append.mpr ⟨h, List.pairwise_singleton _ key, by
        rintro k hk _ hkey rfl
        cases List.mem_singleton.mp hkey
        exact slot?_eq_none.mp hslot hk⟩
    simpa [keys] using hnew

theorem keys_resolve (w : Waiting) (key : String) (r : Resolution) :
    (w.resolve key r).2.keys = w.keys := by
  rw [resolve]
  split
  · exact keys_update w key _
  · rfl

theorem nodup_leave {w : Waiting} (h : w.keys.Nodup) (key : String) :
    (w.leave key).keys.Nodup := by
  rw [leave]
  split
  next => exact h
  next =>
    split
    next => exact h.sublist (List.filter_sublist.map _)
    next => rwa [keys_update]

end Waiting

/-! ## The gauge -/

namespace Metrics

theorem value_set (m : Metrics) (s : Series) (n : Nat) : (m.set s n).value s = n := by
  simp only [set, value]
  induction m.values with
  | nil => simp [replace]
  | cons head rest ih =>
      rcases head with ⟨t, k⟩
      rw [replace]
      split
      next => simp
      next ht => rwa [Waiting.lookup_cons_ite, if_neg (Ne.symm ht)]

end Metrics

namespace Gateway

theorem leave_waiting (g : Gateway) (key : String) :
    (g.leave key).waiting = g.waiting.leave key := rfl

theorem gauged_pending (g : Gateway) : g.gauged.metrics.value .pending = g.waiting.size :=
  Metrics.value_set g.metrics .pending g.waiting.size

end Gateway

/-! ## What the steps of a call do to those who wait -/

/-- What a caller gets of a resolution. -/
def Resolution.result : Resolution → Except GatewayError Json
  | completed payload => .ok payload
  | rejected rejection => .error (.rejected rejection)
  | aborted reason => .error (.aborted reason)

theorem Resolution.result_injective : Function.Injective Resolution.result := by
  rintro (_ | _ | _) (_ | _ | _) h <;> cases h <;> rfl

theorem Resolution.result_ne_timeout (r : Resolution) (key : String) (timeout : Span) :
    r.result ≠ .error (.timeout key timeout) := by
  cases r <;> exact nofun

theorem Resolution.result_ne_publish (r : Resolution) (e : BrokerError) :
    r.result ≠ .error (.publish e) := by
  cases r <;> exact nofun

/-- What those who wait are told if the broker does not take the command. -/
def BrokerError.resolution (e : BrokerError) : Resolution :=
  .aborted s!"command could not be published: {e.message}"

namespace Gateway

variable {ι : Type} {g g' : Gateway} {broker broker' : Broker ι} {call : Call}
  {now : Timestamp}

theorem publish_ok_waiting (h : g.publish broker call now = (.ok (), g', broker')) :
    g'.waiting = g.waiting := by
  rw [publish] at h
  dsimp only at h
  split at h
  · cases h
    rfl
  · cases h

theorem publish_error_waiting {e : GatewayError}
    (h : g.publish broker call now = (.error e, g', broker')) :
    ∃ cause : BrokerError, e = .publish cause ∧
      g'.waiting = (g.waiting.resolve call.key cause.resolution).2 := by
  rw [publish] at h
  dsimp only at h
  split at h
  · cases h
  · cases h
    exact ⟨_, rfl, rfl⟩

theorem publish_memory {result : Except GatewayError Unit}
    (h : g.publish broker call now = (result, g', broker')) : g'.memory = g.memory := by
  rw [publish] at h
  dsimp only at h
  split at h <;> cases h <;> rfl

theorem outcome_memory (g : Gateway) (call : Call) (timeout : Span) :
    (g.outcome call timeout).2.memory = g.memory := by
  rw [outcome]
  split <;> rfl

theorem outcome_of_some {r : Resolution} (h : g.waiting.outcome? call.key = some r)
    (timeout : Span) : g.outcome call timeout = (r.result, g) := by
  rw [outcome, h]
  cases r <;> rfl

theorem outcome_of_none (h : g.waiting.outcome? call.key = none) (timeout : Span) :
    (g.outcome call timeout).1 = .error (.timeout call.key timeout) := by
  rw [outcome, h]

theorem outcome_waiting (g : Gateway) (call : Call) (timeout : Span) :
    (g.outcome call timeout).2.waiting = g.waiting := by
  rw [outcome]
  split <;> rfl

end Gateway

/-- The key that an event resolves, and what it is resolved to. -/
def Gateway.heard? (type : RequestType) (event : Event) : Option (String × Resolution) :=
  match event.metadata.correlationKey?, readOutcome type event with
  | some key, .ok outcome => some (key, outcome.resolution)
  | _, _ => none

theorem Gateway.route_waiting (g : Gateway) (type : RequestType) (event : Event)
    (now : Timestamp) : (g.route type event now).2.waiting =
      match heard? type event with
      | some (key, r) => (g.waiting.resolve key r).2
      | none => g.waiting := by
  rw [route, heard?]
  cases event.metadata.correlationKey? with
  | none => rfl
  | some key =>
    cases readOutcome type event with
    | error e => rfl
    | ok outcome => exact g.deliver_waiting type key outcome now

end KeyedLedger
