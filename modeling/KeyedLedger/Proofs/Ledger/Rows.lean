import Mathlib.Data.List.Nodup
import KeyedLedger.Ledger.Basic

/-! # Rows by their names

Storing a row under a name that no other row has puts it at the end. Storing it under a name that a
row has replaces that row, and no other if names are distinct.
-/

namespace KeyedLedger

namespace Ledger

variable {α κ : Type} {name : α → κ} {row : α} {rows : List α}

/-- Rows that are appended keep a name distinct that none of the others has. -/
theorem nodup_map_append {new : List α} (hrows : (rows.map name).Nodup)
    (hnodup : (new.map name).Nodup) (hnew : ∀ r ∈ rows, ∀ s ∈ new, name r ≠ name s) :
    ((rows ++ new).map name).Nodup := by
  rw [List.map_append]
  refine hrows.append hnodup ?_
  intro k hold hadded
  obtain ⟨r, hr, rfl⟩ := List.mem_map.mp hold
  obtain ⟨s, hs, hsame⟩ := List.mem_map.mp hadded
  exact hnew r hr s hs hsame.symm

variable [DecidableEq κ]

theorem find?_of_mem (hnodup : (rows.map name).Nodup) {r : α} (hr : r ∈ rows) {k : κ}
    (hk : name r = k) : (rows.find? fun s => name s = k) = some r := by
  cases hfound : rows.find? fun s => name s = k with
  | none => simpa [hk] using List.find?_eq_none.mp hfound r hr
  | some s =>
      have hs := List.mem_of_find?_eq_some hfound
      have hname : name s = k := by simpa using List.find?_some hfound
      rw [List.inj_on_of_nodup_map hnodup hs hr (hname.trans hk.symm)]

theorem mem_upsert {r : α} (h : r ∈ upsert name row rows) : r = row ∨ r ∈ rows := by
  induction rows with
  | nil => exact Or.inl (List.mem_singleton.mp h)
  | cons s rest ih =>
      simp only [upsert] at h
      split at h
      · rcases List.mem_cons.mp h with rfl | hrest
        · exact Or.inl rfl
        · exact Or.inr (List.mem_cons_of_mem _ hrest)
      · rcases List.mem_cons.mp h with rfl | hrest
        · exact Or.inr List.mem_cons_self
        · exact (ih hrest).imp_right (List.mem_cons_of_mem _)

theorem upsert_of_new (h : ∀ r ∈ rows, name r ≠ name row) :
    upsert name row rows = rows ++ [row] := by
  induction rows with
  | nil => rfl
  | cons r rest ih =>
      rw [upsert, if_neg (h r List.mem_cons_self), ih fun s hs => h s (List.mem_cons_of_mem _ hs),
        List.cons_append]

theorem map_replace_of_new (h : ∀ r ∈ rows, name r ≠ name row) :
    (rows.map fun r => if name r = name row then row else r) = rows := by
  refine (List.map_congr_left fun r hr => ?_).trans (List.map_id rows)
  rw [if_neg (h r hr), id]

/-- A row with the name of another takes its place. -/
theorem upsert_of_present (hnodup : (rows.map name).Nodup) (h : ∃ r ∈ rows, name r = name row) :
    upsert name row rows = rows.map fun r => if name r = name row then row else r := by
  induction rows with
  | nil => simp at h
  | cons r rest ih =>
      rw [List.map_cons, List.nodup_cons] at hnodup
      rw [upsert, List.map_cons]
      by_cases hname : name r = name row
      · -- No later row has the name, so those stay.
        have hrest : ∀ s ∈ rest, name s ≠ name row := fun s hs hs' =>
          hnodup.1 (List.mem_map.mpr ⟨s, hs, hs'.trans hname.symm⟩)
        rw [if_pos hname, if_pos hname, map_replace_of_new hrest]
      · have hrest : ∃ s ∈ rest, name s = name row := by
          obtain ⟨s, hs, hs'⟩ := h
          rcases List.mem_cons.mp hs with rfl | hs
          · exact absurd hs' hname
          · exact ⟨s, hs, hs'⟩
        rw [if_neg hname, if_neg hname, ih hnodup.2 hrest]

theorem map_replace {β : Type} (f : α → β) (h : ∀ r ∈ rows, name r = name row → f r = f row) :
    (rows.map fun r => if name r = name row then row else r).map f = rows.map f := by
  rw [List.map_map]
  refine List.map_congr_left fun r hr => ?_
  simp only [Function.comp]
  split
  next hname => exact (h r hr hname).symm
  · rfl

/-- Rows with new and distinct names are put at the end, one after the other. -/
theorem foldl_upsert_of_new {new : List α} (hnew : ∀ r ∈ rows, ∀ s ∈ new, name r ≠ name s)
    (hnodup : (new.map name).Nodup) :
    new.foldl (fun rows row => upsert name row rows) rows = rows ++ new := by
  induction new generalizing rows with
  | nil => simp
  | cons row rest ih =>
      rw [List.map_cons, List.nodup_cons] at hnodup
      have hrow : ∀ r ∈ rows, name r ≠ name row := fun r hr => hnew r hr row List.mem_cons_self
      have hrest : ∀ r ∈ rows ++ [row], ∀ s ∈ rest, name r ≠ name s := by
        intro r hr s hs
        rcases List.mem_append.mp hr with hr | hr
        · exact hnew r hr s (List.mem_cons_of_mem _ hs)
        · cases List.mem_singleton.mp hr
          exact fun hname => hnodup.1 (List.mem_map.mpr ⟨s, hs, hname.symm⟩)
      rw [List.foldl_cons, upsert_of_new hrow, ih hrest hnodup.2, List.append_assoc,
        List.singleton_append]

theorem mem_foldl_upsert {new : List α} {r : α}
    (h : r ∈ new.foldl (fun rows row => upsert name row rows) rows) : r ∈ new ∨ r ∈ rows := by
  induction new generalizing rows with
  | nil => exact Or.inr h
  | cons row rest ih =>
      rcases ih h with hrest | hrows
      · exact Or.inl (List.mem_cons_of_mem _ hrest)
      · rcases mem_upsert hrows with rfl | hrows
        · exact Or.inl List.mem_cons_self
        · exact Or.inr hrows

end Ledger

end KeyedLedger
