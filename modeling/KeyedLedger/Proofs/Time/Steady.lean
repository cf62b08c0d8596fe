import KeyedLedger.Time.Timestamp
import Mathlib.Tactic.Ring

/-! # Clocks that never go back

A clock is known by its readings, in order. It never goes back if, seen from each of its readings,
the later ones follow in order: no less time has passed at a later one. For a clock that never shows
a leap second this says that no time is negative from one reading to the next. A leap second has no
place of its own in a distance between days, so within it the order of the readings does not
settle the order of the distances.
-/

namespace KeyedLedger

namespace Timestamp

theorem since_self (t : Timestamp) : t.since t = 0 := by
  simp [since]

/-- Seen from each reading, the later ones follow in order. -/
def Steady : List Timestamp → Prop
  | [] => True
  | start :: rest =>
    (start :: rest).Pairwise (fun t t' => t.since start ≤ t'.since start) ∧ Steady rest

namespace Steady

instance decidable : (readings : List Timestamp) → Decidable (Steady readings)
  | [] => isTrue trivial
  | _ :: rest =>
    have := decidable rest
    inferInstanceAs (Decidable (_ ∧ _))

variable {readings readings' : List Timestamp}

theorem sublist (h : Steady readings) (hsub : readings'.Sublist readings) : Steady readings' := by
  induction hsub with
  | slnil => trivial
  | cons _ _ ih => exact ih h.2
  | cons_cons _ hrest ih => exact ⟨h.1.sublist (hrest.cons_cons _), ih h.2⟩

/-- Seen from a reading, any later one is no nearer than those before it. -/
theorem since_le {before later : List Timestamp} {start t now : Timestamp}
    (h : Steady (before ++ start :: later ++ [now])) (ht : t ∈ later) :
    t.since start ≤ now.since start := by
  rw [List.append_assoc] at h
  obtain ⟨hpairs, -⟩ := h.sublist (List.sublist_append_right before _)
  exact (List.pairwise_append.mp (List.pairwise_cons.mp hpairs).2).2.2 t ht now
    (List.mem_singleton_self now)

end Steady

/-- A point in time that is not within a leap second. -/
def Ordinary (t : Timestamp) : Prop :=
  t.second ≠ 60

/-- Distances between ordinary points in time add up. -/
theorem since_sub_since {start t t' : Timestamp} (hstart : start.Ordinary) (ht : t.Ordinary)
    (ht' : t'.Ordinary) : t'.since start - t.since start = t'.since t := by
  rw [Ordinary] at hstart ht ht'
  simp only [since, hstart, ht, ht', and_false, if_false]
  ring

/-- A clock that shows ordinary times never goes back if no reading lies before an earlier one. -/
theorem steady_of_ordinary {readings : List Timestamp} (hordinary : ∀ t ∈ readings, t.Ordinary)
    (hforward : readings.Pairwise fun t t' => 0 ≤ t'.since t) : Steady readings := by
  induction readings with
  | nil => trivial
  | cons start rest ih =>
      have hrest : ∀ t ∈ rest, t.Ordinary := fun t ht => hordinary t (List.mem_cons_of_mem _ ht)
      refine ⟨hforward.imp_of_mem ?_, ih hrest (List.pairwise_cons.mp hforward).2⟩
      intro t t' ht ht' hle
      have hsub := since_sub_since (hordinary start List.mem_cons_self) (hordinary t ht)
        (hordinary t' ht')
      omega

end Timestamp

end KeyedLedger
