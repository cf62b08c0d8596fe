import KeyedLedger.Proofs.Gateway.Slots
import Mathlib.Logic.Function.Basic
import Mathlib.Logic.Relation

/-! # Holding a place

Whoever joins those who wait for a key holds a place in its slot until it leaves, and listens on the
line of that slot. A key may have one slot after the other, each with a line of its own. A place is
given back by its key alone, not by its slot: the places held for a key are nevertheless all in the
slot that it has now, so no slot is ever taken away from those who hold a place in it.
-/

namespace KeyedLedger

/-- A slot of a key. The slots that the key has had are numbered. -/
structure SlotName where
  key : String
  number : Nat
deriving DecidableEq

/-- The line of a slot: what the key was resolved to while it had the slot, and whether the slot has
been taken away. -/
structure Line where
  told : List Resolution := []
  closed : Bool := false

/-- What those who listen on a line hear. A line carries the first resolution that it is told. -/
def Line.hear : Line → Option Resolution
  | ⟨r :: _, _⟩ => some r
  | ⟨[], true⟩ => some (.aborted "pending slot closed")
  | ⟨[], false⟩ => none

theorem Line.hear_of_open {line : Line} (h : line.closed = false) :
    line.hear = line.told.head? := by
  rcases line with ⟨_ | ⟨r, rest⟩, _ | _⟩
  · rfl
  · cases h
  · rfl
  · rfl

theorem Line.hear_of_head? {line : Line} {r : Resolution} (h : line.told.head? = some r) :
    line.hear = some r := by
  rcases line with ⟨_ | ⟨r', rest⟩, closed⟩
  · cases h
  · exact h

/-- The slots that keys have had, their lines, and the places that are held. A place goes by the
name of its holder. -/
structure Roll (κ : Type) where
  opened : String → Nat := fun _ => 0
  line : SlotName → Line := fun _ => {}
  places : List (κ × SlotName) := []

namespace Roll

variable {κ : Type}

/-- The slot that a key had last. -/
def last (roll : Roll κ) (key : String) : SlotName :=
  ⟨key, roll.opened key - 1⟩

/-- How many places are held for a key. -/
def held (roll : Roll κ) (key : String) : Nat :=
  roll.places.countP fun place => place.2.key = key

/-- The slot in which one who joins gets a place. -/
def slotOf (roll : Roll κ) (key : String) : Role → SlotName
  | .publisher => ⟨key, roll.opened key⟩
  | .attached => roll.last key

/-- Somebody joins, and opens a slot if nobody waited. -/
def join (roll : Roll κ) (who : κ) (key : String) (role : Role) : Roll κ where
  opened := if role = .publisher then Function.update roll.opened key (roll.opened key + 1)
    else roll.opened
  line := roll.line
  places := (who, roll.slotOf key role) :: roll.places

/-- The line of the slot that a key had last is told a resolution, if the key still has the slot. -/
def tell (roll : Roll κ) (pending : Bool) (key : String) (r : Resolution) : Roll κ :=
  if pending then
    let line := roll.line (roll.last key)
    { roll with
      line := Function.update roll.line (roll.last key) { line with told := line.told ++ [r] } }
  else roll

/-- A place is given back. The line of the slot that its key had last is closed, if the key has lost
the slot. -/
def leave [DecidableEq κ] (roll : Roll κ) (who : κ) (slot : SlotName) (pending : Bool) :
    Roll κ where
  opened := roll.opened
  line :=
    if pending then roll.line
    else Function.update roll.line (roll.last slot.key)
      { roll.line (roll.last slot.key) with closed := true }
  places := roll.places.erase (who, slot)

end Roll

variable {κ : Type}

/-- The slots are those in which places are held. -/
structure Waiting.Keeps (w : Waiting) (roll : Roll κ) : Prop where
  nodup : w.keys.Nodup
  held : ∀ key, roll.held key = (w.slot? key).elim 0 Slot.waiters
  busy : ∀ {key slot}, w.slot? key = some slot → 0 < slot.waiters
  current : ∀ {place}, place ∈ roll.places → place.2.number + 1 = roll.opened place.2.key
  heard : ∀ {key slot}, w.slot? key = some slot →
    slot.resolution = (roll.line (roll.last key)).told.head?
  live : ∀ {key slot}, w.slot? key = some slot → (roll.line (roll.last key)).closed = false
  blank : ∀ {slot : SlotName}, roll.opened slot.key ≤ slot.number → roll.line slot = {}

namespace Waiting.Keeps

variable {w : Waiting} {roll : Roll κ}

theorem empty : ({} : Waiting).Keeps ({} : Roll κ) where
  nodup := List.nodup_nil
  held _ := rfl
  busy h := nomatch h
  current h := nomatch h
  heard h := nomatch h
  live h := nomatch h
  blank _ := rfl

theorem held_pos {key : String} {place : κ × SlotName} (hplace : place ∈ roll.places)
    (hkey : place.2.key = key) : 0 < roll.held key :=
  List.countP_pos_iff.mpr ⟨place, hplace, by simpa using hkey⟩

/-- A key has a slot if and only if a place is held for it. -/
theorem isSome_iff (h : w.Keeps roll) (key : String) :
    (w.slot? key).isSome ↔ ∃ place ∈ roll.places, place.2.key = key := by
  constructor
  · intro hsome
    obtain ⟨slot, hslot⟩ := Option.isSome_iff_exists.mp hsome
    have hpos : 0 < roll.held key := by
      rw [h.held, hslot]
      exact h.busy hslot
    obtain ⟨place, hplace, hkey⟩ := List.countP_pos_iff.mp hpos
    exact ⟨place, hplace, of_decide_eq_true hkey⟩
  · rintro ⟨place, hplace, hkey⟩
    have hpos := held_pos hplace hkey
    rw [h.held] at hpos
    cases hslot : w.slot? key with
    | some slot => rfl
    | none => rw [hslot] at hpos; exact absurd hpos (Nat.lt_irrefl 0)

theorem slot_of_place (h : w.Keeps roll) {place : κ × SlotName} (hplace : place ∈ roll.places) :
    ∃ slot, w.slot? place.2.key = some slot :=
  Option.isSome_iff_exists.mp ((h.isSome_iff _).mpr ⟨place, hplace, rfl⟩)

/-- The places held for a key are in the slot that it had last. -/
theorem eq_last (h : w.Keeps roll) {place : κ × SlotName} (hplace : place ∈ roll.places) :
    place.2 = roll.last place.2.key := by
  have hnumber := h.current hplace
  rcases hslot : place.2 with ⟨key, number⟩
  rw [hslot] at hnumber
  rw [Roll.last, ← hnumber, Nat.add_sub_cancel]

/-- Whoever holds a place sees what its line carries. -/
theorem outcome?_eq (h : w.Keeps roll) {place : κ × SlotName} (hplace : place ∈ roll.places) :
    w.outcome? place.2.key = (roll.line place.2).told.head? := by
  obtain ⟨slot, hslot⟩ := h.slot_of_place hplace
  rw [Waiting.outcome?, hslot, Option.bind_some, h.heard hslot, ← h.eq_last hplace]

theorem open_of_place (h : w.Keeps roll) {place : κ × SlotName} (hplace : place ∈ roll.places) :
    (roll.line place.2).closed = false := by
  obtain ⟨slot, hslot⟩ := h.slot_of_place hplace
  rw [h.eq_last hplace]
  exact h.live hslot

/-- A key that has a slot has had one. -/
theorem opened_pos (h : w.Keeps roll) {key : String} (hsome : (w.slot? key).isSome) :
    0 < roll.opened key := by
  obtain ⟨place, hplace, rfl⟩ := (h.isSome_iff key).mp hsome
  exact h.current hplace ▸ Nat.succ_pos _

theorem last_lt (h : w.Keeps roll) {key : String} (hsome : (w.slot? key).isSome) :
    (roll.last key).number < roll.opened key :=
  Nat.sub_lt (h.opened_pos hsome) Nat.one_pos

end Waiting.Keeps

/-! ## Steps -/

namespace Roll

variable (roll : Roll κ) (who : κ) (key : String)

theorem slotOf_key (role : Role) : (roll.slotOf key role).key = key := by
  cases role <;> rfl

theorem last_eq {key k : String} : roll.last k = roll.last key ↔ k = key := by
  constructor
  · intro h
    exact congrArg SlotName.key h
  · rintro rfl
    rfl

theorem last_join_publisher : (roll.join who key .publisher).last key = ⟨key, roll.opened key⟩ := by
  simp [last, join]

/-- The slots that have been opened, once somebody has joined. -/
theorem lt_opened_join (role : Role) {slot : SlotName} :
    slot.number < (roll.join who key role).opened slot.key ↔
      slot.number < roll.opened slot.key ∨ role = .publisher ∧ slot = ⟨key, roll.opened key⟩ := by
  rcases slot with ⟨k, n⟩
  rcases role with _ | _
  · by_cases hk : k = key
    · subst hk
      simp only [join, if_true, Function.update_self, SlotName.mk.injEq, true_and]
      exact Nat.lt_succ_iff_lt_or_eq
    · simp [join, hk]
  · simp [join]

theorem held_join (role : Role) (k : String) :
    (roll.join who key role).held k = roll.held k + if key = k then 1 else 0 := by
  simp only [held, join, List.countP_cons, slotOf_key, decide_eq_true_eq]

theorem opened_le_join (role : Role) (k : String) :
    roll.opened k ≤ (roll.join who key role).opened k := by
  rw [join]
  dsimp only
  split
  · by_cases hk : k = key
    · rw [hk, Function.update_self]
      exact Nat.le_succ _
    · exact Nat.le_of_eq (Function.update_of_ne hk _ _).symm
  · exact Nat.le_refl _

theorem places_tell (pending : Bool) (r : Resolution) :
    (roll.tell pending key r).places = roll.places := by
  cases pending <;> rfl

theorem opened_tell (pending : Bool) (r : Resolution) :
    (roll.tell pending key r).opened = roll.opened := by
  cases pending <;> rfl

theorem line_tell_of_ne (pending : Bool) (r : Resolution) {slot : SlotName}
    (hne : slot ≠ roll.last key) : (roll.tell pending key r).line slot = roll.line slot := by
  rw [tell]
  split
  · exact Function.update_of_ne hne _ _
  · rfl

theorem line_tell_last (r : Resolution) :
    (roll.tell true key r).line (roll.last key) =
      { roll.line (roll.last key) with told := (roll.line (roll.last key)).told ++ [r] } :=
  Function.update_self _ _ _

/-- A line only ever hears more. -/
theorem told_grows_tell (pending : Bool) (r : Resolution) (slot : SlotName) :
    (roll.line slot).told <+: ((roll.tell pending key r).line slot).told := by
  by_cases hslot : slot = roll.last key
  · subst hslot
    cases pending with
    | true =>
        rw [line_tell_last]
        exact List.prefix_append _ _
    | false => exact List.prefix_rfl
  · simp only [line_tell_of_ne roll key pending r hslot, List.prefix_rfl]

theorem told_leave [DecidableEq κ] (slot : SlotName) (pending : Bool) (slot' : SlotName) :
    ((roll.leave who slot pending).line slot').told = (roll.line slot').told := by
  rw [leave]
  dsimp only
  split
  · rfl
  · by_cases hslot : slot' = roll.last slot.key
    · rw [hslot, Function.update_self]
    · rw [Function.update_of_ne hslot]

theorem held_leave [DecidableEq κ] {slot : SlotName} (hplace : (who, slot) ∈ roll.places)
    (pending : Bool) (k : String) :
    (roll.leave who slot pending).held k = roll.held k - if slot.key = k then 1 else 0 := by
  have hperm := List.perm_cons_erase hplace
  simp only [held, leave, hperm.countP_eq, List.countP_cons, decide_eq_true_eq, Nat.add_sub_cancel]

end Roll

namespace Waiting.Keeps

variable {w : Waiting} {roll : Roll κ}

/-- The one who comes first opens the next slot of its key. -/
theorem open_slot (h : w.Keeps roll) (who : κ) {key : String} (hnone : w.slot? key = none) :
    (w.join key).2.Keeps (roll.join who key .publisher) where
  nodup := nodup_join h.nodup key
  held k := by
    rw [Roll.held_join, h.held, slot?_join]
    by_cases hk : k = key
    · subst hk
      simp [hnone]
    · simp [hk, Ne.symm hk]
  busy {k slot} hslot := by
    rw [slot?_join, hnone] at hslot
    split at hslot
    · cases hslot
      exact Nat.one_pos
    · exact h.busy hslot
  current {place} hplace := by
    rcases List.mem_cons.mp hplace with rfl | hplace
    · simp [Roll.join, Roll.slotOf]
    · have hne : place.2.key ≠ key := by
        intro hkey
        have hsome := (h.isSome_iff key).mpr ⟨place, hplace, hkey⟩
        rw [hnone] at hsome
        cases hsome
      simpa [Roll.join, Function.update_of_ne hne] using h.current hplace
  heard {k slot} hslot := by
    rw [slot?_join, hnone] at hslot
    split at hslot
    next hk =>
      cases hslot
      have hblank : roll.line ⟨key, roll.opened key⟩ = {} := h.blank (Nat.le_refl _)
      simp [Roll.join, Roll.last, hk, hblank]
    next hk => simpa [Roll.join, Roll.last, Function.update_of_ne hk] using h.heard hslot
  live {k slot} hslot := by
    rw [slot?_join, hnone] at hslot
    split at hslot
    next hk =>
      have hblank : roll.line ⟨key, roll.opened key⟩ = {} := h.blank (Nat.le_refl _)
      simp [Roll.join, Roll.last, hk, hblank]
    next hk => simpa [Roll.join, Roll.last, Function.update_of_ne hk] using h.live hslot
  blank hle := h.blank (Nat.le_trans (roll.opened_le_join who key _ _) hle)

/-- The others join the slot that is there. -/
theorem attach (h : w.Keeps roll) (who : κ) {key : String} {slot : Slot}
    (hslot : w.slot? key = some slot) :
    (w.join key).2.Keeps (roll.join who key .attached) where
  nodup := nodup_join h.nodup key
  held k := by
    rw [Roll.held_join, h.held, slot?_join]
    by_cases hk : k = key
    · subst hk
      simp [hslot]
    · simp [hk, Ne.symm hk]
  busy {k s} hs := by
    rw [slot?_join, hslot] at hs
    split at hs
    · cases hs
      exact Nat.succ_pos _
    · exact h.busy hs
  current {place} hplace := by
    rcases List.mem_cons.mp hplace with rfl | hplace
    · exact Nat.sub_add_cancel (h.opened_pos (hslot ▸ rfl))
    · exact h.current hplace
  heard {k s} hs := by
    rw [slot?_join, hslot] at hs
    split at hs
    next hk =>
      cases hs
      subst hk
      exact (h.heard hslot :)
    next => exact h.heard hs
  live {k s} hs := by
    rw [slot?_join, hslot] at hs
    split at hs
    next hk =>
      subst hk
      exact h.live hslot
    next => exact h.live hs
  blank hle := h.blank hle

theorem join (h : w.Keeps roll) (who : κ) (key : String) :
    (w.join key).2.Keeps (roll.join who key (w.join key).1) := by
  cases hslot : w.slot? key with
  | none =>
      rw [join_fst_eq_publisher.mpr hslot]
      exact h.open_slot who hslot
  | some slot =>
      rw [join_fst_eq_attached.mpr (hslot ▸ rfl)]
      exact h.attach who hslot

theorem tell (h : w.Keeps roll) (key : String) (r : Resolution) :
    (w.resolve key r).2.Keeps (roll.tell (w.isPending key) key r) := by
  cases hslot : w.slot? key with
  | none =>
      rw [isPending, hslot, resolve, hslot]
      exact h
  | some slot =>
  rw [isPending, hslot]
  have hother : ∀ {slot' : SlotName}, slot' ≠ roll.last key →
      (roll.tell true key r).line slot' = roll.line slot' :=
    fun hne => roll.line_tell_of_ne key true r hne
  exact {
    nodup := keys_resolve w key r ▸ h.nodup
    held := fun k => by
      rw [slot?_resolve]
      split
      next hk =>
        subst hk
        rw [hslot]
        exact (h.held k).trans (by rw [hslot]; rfl)
      next => exact h.held k
    busy := fun {k s} hs => by
      rw [slot?_resolve, hslot] at hs
      split at hs
      · cases hs
        exact (h.busy hslot :)
      · exact h.busy hs
    current := h.current
    heard := fun {k s} hs => by
      rw [slot?_resolve, hslot] at hs
      split at hs
      next hk =>
        cases hs
        subst hk
        change _ = ((roll.tell true k r).line (roll.last k)).told.head?
        rw [Roll.line_tell_last, List.head?_append, ← h.heard hslot]
        rfl
      next hk => exact hother (mt (roll.last_eq).mp hk) ▸ h.heard hs
    live := fun {k s} hs => by
      rw [slot?_resolve, hslot] at hs
      split at hs
      next hk =>
        subst hk
        change ((roll.tell true k r).line (roll.last k)).closed = false
        rw [Roll.line_tell_last]
        exact h.live hslot
      next hk => exact hother (mt (roll.last_eq).mp hk) ▸ h.live hs
    blank := fun {slot'} hle => by
      have hne : slot' ≠ roll.last key := by
        rintro rfl
        exact Nat.not_le_of_lt (h.last_lt (hslot ▸ rfl)) hle
      exact (hother hne).trans (h.blank hle) }

theorem leave [DecidableEq κ] (h : w.Keeps roll) {who : κ} {slot : SlotName}
    (hplace : (who, slot) ∈ roll.places) :
    (w.leave slot.key).Keeps (roll.leave who slot ((w.leave slot.key).isPending slot.key)) := by
  obtain ⟨s, hs⟩ := h.slot_of_place hplace
  have hsome : (w.slot? slot.key).isSome := hs ▸ rfl
  -- the line of a slot that remains is as it was
  have hline : ∀ {k s'}, (w.leave slot.key).slot? k = some s' →
      (roll.leave who slot ((w.leave slot.key).isPending slot.key)).line (roll.last k) =
        roll.line (roll.last k) := by
    intro k s' hs'
    rw [Roll.leave]
    dsimp only
    split
    · rfl
    next hgone =>
      refine Function.update_of_ne (mt (roll.last_eq).mp ?_) _ _
      rintro rfl
      exact hgone (by rw [isPending, hs']; rfl)
  have hkept : ∀ {k s'}, (w.leave slot.key).slot? k = some s' → ∃ s₀, w.slot? k = some s₀ ∧
      s'.resolution = s₀.resolution ∧ 0 < s'.waiters := by
    intro k s' hs'
    rw [slot?_leave, hs] at hs'
    split at hs'
    next hk =>
      rw [Option.bind_some] at hs'
      split at hs'
      · cases hs'
      · cases hs'
        exact ⟨s, hk ▸ hs, rfl, Nat.sub_pos_of_lt (Nat.lt_of_not_le ‹_›)⟩
    next => exact ⟨s', hs', rfl, h.busy hs'⟩
  exact {
    nodup := nodup_leave h.nodup slot.key
    held := fun k => by
      rw [Roll.held_leave roll who hplace, h.held, slot?_leave]
      by_cases hk : k = slot.key
      · subst hk
        rw [if_pos rfl, if_pos rfl, hs, Option.bind_some]
        split
        · exact Nat.sub_eq_zero_of_le ‹_›
        · rfl
      · rw [if_neg (Ne.symm hk), if_neg hk, Nat.sub_zero]
    busy := fun hs' => (hkept hs').choose_spec.2.2
    current := fun hmem => h.current (List.mem_of_mem_erase hmem)
    heard := fun hs' => by
      obtain ⟨s₀, hs₀, hresolution, -⟩ := hkept hs'
      exact hresolution.trans ((h.heard hs₀).trans (congrArg (·.told.head?) (hline hs')).symm)
    live := fun hs' => by
      obtain ⟨s₀, hs₀, -, -⟩ := hkept hs'
      exact (congrArg Line.closed (hline hs')).trans (h.live hs₀)
    blank := fun {slot'} hle => by
      have hne : slot' ≠ roll.last slot.key := by
        rintro rfl
        exact Nat.not_le_of_lt (h.last_lt hsome) hle
      rw [Roll.leave]
      dsimp only
      split
      · exact h.blank hle
      · exact (Function.update_of_ne hne _ _).trans (h.blank hle) }

end Waiting.Keeps

end KeyedLedger
