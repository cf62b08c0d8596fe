import KeyedLedger.Proofs.Gateway.Places

/-! # The desk

At the desk of a gateway callers join those who wait for a key, keys are resolved, callers wait on
the lines of their slots, and they leave. In whatever order this happens, a key has a slot exactly
while a place is held for it, and all who hold one hear the same: the first resolution of the key
since it has had the slot.
-/

namespace KeyedLedger

/-- A gateway, with the places that are held there. -/
structure Desk (κ : Type) where
  gateway : Gateway
  roll : Roll κ := {}

namespace Desk

variable {κ : Type}

/-- The slot of a key. -/
def slot? (d : Desk κ) (key : String) : Option Slot :=
  d.gateway.waiting.slot? key

/-- What the gauge of waiting keys shows. -/
def gauge (d : Desk κ) : Nat :=
  d.gateway.metrics.value .pending

/-- Somebody joins those who wait for a key, and gets a place. -/
def register (d : Desk κ) (who : κ) (key : String) : Role × Desk κ :=
  match d.gateway.join key with
  | (role, gateway) => (role, ⟨gateway, d.roll.join who key role⟩)

/-- A key is resolved. -/
def resolve (d : Desk κ) (key : String) (r : Resolution) : Bool × Desk κ :=
  match d.gateway.waiting.resolve key r with
  | (taken, waiting) =>
    (taken, ⟨{ d.gateway with waiting := waiting },
      d.roll.tell (d.gateway.waiting.isPending key) key r⟩)

/-- What somebody with a place in a slot gets who waits until its time is up. -/
def wait (d : Desk κ) (slot : SlotName) : Option Resolution :=
  (d.roll.line slot).hear

/-- A place is given back. -/
def drop [DecidableEq κ] (d : Desk κ) (who : κ) (slot : SlotName) : Desk κ :=
  let gateway := d.gateway.leave slot.key
  ⟨gateway, d.roll.leave who slot (gateway.waiting.isPending slot.key)⟩

variable [DecidableEq κ]

/-- What may happen at the desk. -/
inductive Step (d : Desk κ) : Desk κ → Prop
  | register (who : κ) (key : String) : Step d (d.register who key).2
  | resolve (key : String) (r : Resolution) : Step d (d.resolve key r).2
  | wait {who : κ} {slot : SlotName} (hplace : (who, slot) ∈ d.roll.places) : Step d d
  | drop {who : κ} {slot : SlotName} (hplace : (who, slot) ∈ d.roll.places) :
      Step d (d.drop who slot)

/-- A desk at which anything may have happened since nobody waited. -/
def Reached (d : Desk κ) : Prop :=
  ∃ g : Gateway, g.waiting = {} ∧ Relation.ReflTransGen Step ⟨g, {}⟩ d

/-- The slots and the places of a desk belong together. -/
def Keeps (d : Desk κ) : Prop :=
  d.gateway.waiting.Keeps d.roll

/-! ## Single steps -/

section

variable {d d' : Desk κ}

theorem Step.keeps (h : d.Step d') (hkeeps : d.Keeps) : d'.Keeps := by
  cases h with
  | register who key => exact hkeeps.join who key
  | resolve key r => exact hkeeps.tell key r
  | wait => exact hkeeps
  | drop hplace => exact hkeeps.leave hplace

/-- What a line has been told is not taken back. -/
theorem Step.told_grows (h : d.Step d') (slot : SlotName) :
    (d.roll.line slot).told <+: (d'.roll.line slot).told := by
  cases h with
  | register who key => exact List.prefix_rfl
  | resolve key r => exact d.roll.told_grows_tell key _ r slot
  | wait => exact List.prefix_rfl
  | drop hplace => exact (d.roll.told_leave _ _ _ slot) ▸ List.prefix_rfl

theorem Reached.keeps (h : d.Reached) : d.Keeps := by
  obtain ⟨g, hg, hsteps⟩ := h
  induction hsteps with
  | refl => exact (congrArg (Waiting.Keeps · ({} : Roll κ)) hg).mpr .empty
  | tail _ hstep ih => exact hstep.keeps ih

theorem told_grows (h : Relation.ReflTransGen Step d d') (slot : SlotName) :
    (d.roll.line slot).told <+: (d'.roll.line slot).told := by
  induction h with
  | refl => exact List.prefix_rfl
  | tail _ hstep ih => exact ih.trans (hstep.told_grows slot)

end

/-! ## What holds at every desk -/

/-- The table of those who wait is in order. -/
structure Correlated (d : Desk κ) : Prop where
  /-- A key has a slot if and only if a place is held for it, -/
  slot_iff : ∀ key, (d.slot? key).isSome ↔ ∃ place ∈ d.roll.places, place.2.key = key
  /-- and the slot counts the places. -/
  waiters_eq : ∀ {key slot}, d.slot? key = some slot → slot.waiters = d.roll.held key
  nodup : d.gateway.waiting.keys.Nodup
  /-- Whoever joins has to publish if and only if there was no slot. -/
  publisher_iff : ∀ who key, (d.register who key).1 = .publisher ↔ d.slot? key = none
  /-- A resolution is taken if and only if there is a slot that has none, -/
  taken_iff : ∀ key r, (d.resolve key r).1 = true ↔ ∃ n, d.slot? key = some ⟨none, n⟩
  /-- changes this slot and its line and no other, -/
  taken : ∀ {key r}, (d.resolve key r).1 = true →
    (∀ k, (d.resolve key r).2.slot? k =
      if k = key then (d.slot? key).map fun slot => { slot with resolution := some r }
      else d.slot? k) ∧
    ∀ slot, slot ≠ d.roll.last key → (d.resolve key r).2.wait slot = d.wait slot
  /-- and changes nothing if it is not taken. -/
  not_taken : ∀ {key r}, (d.resolve key r).1 = false →
    (d.resolve key r).2.gateway = d.gateway ∧
      ∀ place ∈ d.roll.places, (d.resolve key r).2.wait place.2 = d.wait place.2
  /-- Whoever holds a place gets what its slot has been resolved to, -/
  wait_eq : ∀ place ∈ d.roll.places,
    d.wait place.2 = d.gateway.waiting.outcome? place.2.key ∧
      d.wait place.2 = (d.roll.line place.2).told.head?
  /-- and does not find the line closed. -/
  line_open : ∀ place ∈ d.roll.places, (d.roll.line place.2).closed = false
  /-- What a slot has been resolved to, it is resolved to ever after. -/
  lasting : ∀ {d' slot r}, Relation.ReflTransGen Step d d' →
    (d.roll.line slot).told.head? = some r → d'.wait slot = some r
  /-- The places held for a key are all in the slot that it had last. -/
  eq_last : ∀ place ∈ d.roll.places, place.2 = d.roll.last place.2.key
  /-- On the line of a slot that has just been opened, nothing has been said, and no place was
  held in it before. -/
  opened : ∀ {who key}, (d.register who key).1 = .publisher →
    (d.register who key).2.roll.line ((d.register who key).2.roll.last key) = {} ∧
      ∀ place ∈ d.roll.places, place.2 ≠ (d.register who key).2.roll.last key
  /-- Whenever somebody has joined or left, the gauge shows how many slots there are. -/
  gauge_register : ∀ who key,
    (d.register who key).2.gauge = (d.register who key).2.gateway.waiting.size
  gauge_drop : ∀ who slot, (d.drop who slot).gauge = (d.drop who slot).gateway.waiting.size

variable {d d' : Desk κ}

omit [DecidableEq κ] in
theorem Keeps.wait_eq_head? (h : d.Keeps) {place : κ × SlotName} (hplace : place ∈ d.roll.places) :
    d.wait place.2 = (d.roll.line place.2).told.head? :=
  Line.hear_of_open (h.open_of_place hplace)

omit [DecidableEq κ] in
theorem Keeps.wait_eq_outcome? (h : d.Keeps) {place : κ × SlotName}
    (hplace : place ∈ d.roll.places) :
    d.wait place.2 = d.gateway.waiting.outcome? place.2.key :=
  (h.wait_eq_head? hplace).trans (h.outcome?_eq hplace).symm

/-- A line that has carried a resolution carries it ever after, open or closed. -/
theorem wait_lasting (h : Relation.ReflTransGen Step d d') {slot : SlotName} {r : Resolution}
    (hr : (d.roll.line slot).told.head? = some r) : d'.wait slot = some r := by
  obtain ⟨later, hlater⟩ := told_grows h slot
  have hhead : (d'.roll.line slot).told.head? = some r := by
    rw [← hlater, List.head?_append, hr]
    rfl
  exact Line.hear_of_head? hhead

theorem Keeps.toCorrelated (h : d.Keeps) : d.Correlated where
  slot_iff := h.isSome_iff
  waiters_eq {key slot} hslot := by
    have hheld := h.held key
    rw [slot?] at hslot
    rw [hslot] at hheld
    exact hheld.symm
  nodup := h.nodup
  publisher_iff who key := Waiting.join_fst_eq_publisher
  taken_iff key r := Waiting.resolve_fst_eq_true
  taken {key r} htaken := by
    obtain ⟨n, hslot⟩ := Waiting.resolve_fst_eq_true.mp htaken
    constructor
    · intro k
      refine (Waiting.slot?_resolve d.gateway.waiting key k r).trans ?_
      rw [slot?, hslot]
      rfl
    · intro slot hne
      exact congrArg Line.hear (d.roll.line_tell_of_ne key _ r hne)
  not_taken {key r} htaken := by
    have hwaiting := Waiting.resolve_of_false htaken
    have hkeeps : (d.resolve key r).2.Keeps := (Step.resolve key r).keeps h
    have hplaces : (d.resolve key r).2.roll.places = d.roll.places := d.roll.places_tell key _ r
    refine ⟨congrArg (fun waiting => { d.gateway with waiting := waiting }) hwaiting, ?_⟩
    intro place hplace
    calc (d.resolve key r).2.wait place.2
        = (d.gateway.waiting.resolve key r).2.outcome? place.2.key :=
          hkeeps.wait_eq_outcome? (hplaces ▸ hplace)
      _ = d.gateway.waiting.outcome? place.2.key := by rw [hwaiting]
      _ = d.wait place.2 := (h.wait_eq_outcome? hplace).symm
  wait_eq place hplace :=
    ⟨h.wait_eq_outcome? hplace, h.wait_eq_head? hplace⟩
  line_open place hplace := h.open_of_place hplace
  lasting hsteps hr := wait_lasting hsteps hr
  eq_last place hplace := h.eq_last hplace
  opened {who key} hrole := by
    have hlast : (d.register who key).2.roll.last key = ⟨key, d.roll.opened key⟩ := by
      change Roll.last (d.roll.join who key (d.register who key).1) key = _
      rw [hrole, Roll.last_join_publisher]
    rw [hlast]
    refine ⟨h.blank (Nat.le_refl _), ?_⟩
    rintro place hplace heq
    have hnumber := h.current hplace
    rw [heq] at hnumber
    exact Nat.succ_ne_self _ hnumber
  gauge_register who key := Gateway.gauged_pending _
  gauge_drop who slot := Gateway.gauged_pending _

/-- However callers join, wait and leave and keys are resolved, the table of those who wait is in
order. -/
theorem Reached.correlated (h : d.Reached) : d.Correlated :=
  h.keeps.toCorrelated

end Desk

namespace Sample

/-- Two callers wait for a key, it is resolved, and the first of them leaves. -/
def desk : Desk Nat :=
  let fresh : Desk Nat := ⟨{ memory := ⟨1000, []⟩ }, {}⟩
  let crowded := ((fresh.register 0 "key").2.register 1 "key").2
  (crowded.resolve "key" (.completed .null)).2.drop 0 ⟨"key", 0⟩

theorem reached_desk : desk.Reached :=
  ⟨{ memory := ⟨1000, []⟩ }, rfl, .tail (.tail (.tail (.single (.register 0 "key"))
    (.register 1 "key")) (.resolve "key" (.completed .null))) (.drop (by decide))⟩

theorem desk_correlated :
    desk.Reached ∧ desk.Correlated ∧ desk.roll.places = [(1, ⟨"key", 0⟩)] ∧
      desk.wait ⟨"key", 0⟩ = some (.completed .null) :=
  ⟨reached_desk, Desk.Reached.correlated reached_desk, by decide, rfl⟩

end Sample

end KeyedLedger
