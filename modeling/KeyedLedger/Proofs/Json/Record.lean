import Mathlib.Data.List.Nodup
import Mathlib.Data.List.Perm.Basic
import KeyedLedger.Json.Decoder

/-! # Records read back as they were written

A record is written as an object with one member for each of its fields. It travels with its members
in the order of the fields and is kept with its members sorted. A record is read by its keys, so the
order does not matter as long as they differ: however the objects of a value are arranged, a record
reads back as soon as each of its fields does (`Shape.Writes.decoder`).
-/

namespace KeyedLedger

theorem bind_ok {ε α β : Type} {x : Except ε α} {f : α → Except ε β} {b : β}
    (h : x >>= f = .ok b) : ∃ a, x = .ok a ∧ f a = .ok b := by
  cases x with
  | error e => cases h
  | ok a => exact ⟨a, rfl, h⟩

theorem map_ok {ε α β : Type} {x : Except ε α} {f : α → β} {b : β} (h : x.map f = .ok b) :
    ∃ a, x = .ok a ∧ f a = b := by
  cases x with
  | error e => cases h
  | ok a =>
      cases h
      exact ⟨a, rfl, rfl⟩

namespace Json

theorem insertMember_perm {key : String} {value : Json} {members : List (String × Json)}
    (hkey : key ∉ members.map Prod.fst) :
    (insertMember key value members).Perm ((key, value) :: members) := by
  induction members with
  | nil => exact List.Perm.refl _
  | cons m rest ih =>
      rcases m with ⟨k, v⟩
      simp only [List.map_cons, List.mem_cons, not_or] at hkey
      rw [insertMember]
      split
      · exact List.Perm.refl _
      rw [if_neg hkey.1]
      exact ((ih hkey.2).cons (k, v)).trans (List.Perm.swap _ _ _)

/-- Sorting members with different keys permutes them, and sorts the value of each. -/
theorem sortedMembers_perm {members done : List (String × Json)}
    (hkeys : ((members ++ done).map Prod.fst).Nodup) :
    (sortedMembers members done).Perm (members.map (fun m => (m.1, m.2.sorted)) ++ done) := by
  induction members generalizing done with
  | nil =>
      rw [sortedMembers]
      exact List.Perm.refl _
  | cons m rest ih =>
      rcases m with ⟨k, v⟩
      rw [List.cons_append, List.map_cons, List.nodup_cons, List.map_append, List.mem_append,
        not_or] at hkeys
      have hinsert : (insertMember k v.sorted done).Perm ((k, v.sorted) :: done) :=
        insertMember_perm hkeys.1.2
      rw [sortedMembers]
      -- The keys still differ once the first member has been put among those that are done.
      have hrest : ((rest ++ insertMember k v.sorted done).map Prod.fst).Nodup := by
        rw [List.map_append]
        have hperm : (rest.map Prod.fst ++ (insertMember k v.sorted done).map Prod.fst).Perm
            (k :: (rest.map Prod.fst ++ done.map Prod.fst)) :=
          ((hinsert.map Prod.fst).append_left _).trans List.perm_middle
        exact hperm.nodup_iff.mpr (List.nodup_cons.mpr ⟨by simpa using hkeys.1, hkeys.2⟩)
      exact (ih hrest).trans ((hinsert.append_left _).trans List.perm_middle)

/-- A way to arrange the members of objects with different keys, here and in all values inside. -/
structure Arranges (f : Json → Json) : Prop where
  null : f .null = .null
  string : ∀ s, f (.string s) = .string s
  number : ∀ t, f (.number t) = .number t
  array : ∀ items, f (.array items) = .array (items.map f)
  object : ∀ members, (members.map Prod.fst).Nodup → ∃ arranged,
    f (.object members) = .object arranged ∧ arranged.Perm (members.map fun m => (m.1, f m.2))

theorem arranges_id : Arranges id :=
  ⟨rfl, fun _ => rfl, fun _ => rfl, fun items => congrArg array (List.map_id items).symm,
    fun members _ => ⟨members, rfl, by simp⟩⟩

theorem sortedItems_eq (items : List Json) : sortedItems items = items.map sorted := by
  induction items with
  | nil => rfl
  | cons j rest ih => rw [sortedItems, ih, List.map_cons]

theorem arranges_sorted : Arranges sorted := by
  refine ⟨rfl, fun _ => rfl, fun _ => rfl, fun items => ?_, fun members hkeys => ?_⟩
  · rw [sorted, sortedItems_eq]
  · refine ⟨sortedMembers members [], by rw [sorted], ?_⟩
    have hsorted := @sortedMembers_perm members [] (by rwa [List.append_nil])
    rwa [List.append_nil] at hsorted

end Json

theorem Document.ofMembers_eq (members : List (String × Json)) :
    Document.ofMembers members = members.map fun m => (some m.1, Document.ofJson m.2) := by
  induction members with
  | nil => rfl
  | cons m rest ih =>
      rcases m with ⟨k, v⟩
      rw [Document.ofMembers, ih, List.map_cons]

theorem Document.ofItems_eq (items : List Json) :
    Document.ofItems items = items.map Document.ofJson := by
  induction items with
  | nil => rfl
  | cons j rest ih => rw [Document.ofItems, ih, List.map_cons]

/-- A decoder gives back the value that is written as some JSON, however that is arranged. -/
def Decoder.Reads {α : Type} (d : Decoder α) (j : Json) (a : α) : Prop :=
  ∀ f, Json.Arranges f → d.ofJson (f j) = .ok a

theorem Decoder.Reads.asWritten {α : Type} {d : Decoder α} {j : Json} {a : α} (h : d.Reads j a) :
    d.ofJson j = .ok a :=
  h id Json.arranges_id

theorem Decoder.Reads.sorted {α : Type} {d : Decoder α} {j : Json} {a : α} (h : d.Reads j a) :
    d.ofJson j.sorted = .ok a :=
  h Json.sorted Json.arranges_sorted

namespace Shape

open Document (Node)

variable {α β : Type}

theorem lookup_of_mem {members : List (String × Node)} (hkeys : (members.map Prod.fst).Nodup)
    {key : String} {node : Node} (h : (key, node) ∈ members) : members.lookup key = some node := by
  induction members with
  | nil => simp at h
  | cons m rest ih =>
      rcases m with ⟨k, n⟩
      rw [List.map_cons, List.nodup_cons] at hkeys
      rcases List.mem_cons.mp h with heq | hrest
      · cases heq
        exact List.lookup_cons_self
      · have hne : key ≠ k := by
          rintro rfl
          exact hkeys.1 (List.mem_map.mpr ⟨_, hrest, rfl⟩)
        rw [List.lookup_cons, beq_false_of_ne hne]
        exact ih hkeys.2 hrest

/-- Members that all belong to the record, with different keys, are all found. -/
theorem readMembers_eq {fields : List Field} {members : List (String × Node)} {seen : List String}
    (hkeys : (members.map Prod.fst).Nodup) (hseen : ∀ m ∈ members, m.1 ∉ seen)
    (hfields : ∀ m ∈ members, ∃ f, (fields.find? fun f => f.key == m.1) = some f ∧
      f.check m.2 = .ok ()) :
    readMembers fields (members.map fun m => (some m.1, m.2)) seen = .ok members := by
  induction members generalizing seen with
  | nil => rfl
  | cons m rest ih =>
      rcases m with ⟨k, n⟩
      rw [List.map_cons, List.nodup_cons] at hkeys
      obtain ⟨f, hfind, hcheck⟩ := hfields _ List.mem_cons_self
      -- The key that has just been seen belongs to none of the members that are left.
      have hrest : ∀ m ∈ rest, m.1 ∉ k :: seen := by
        intro m hm
        rw [List.mem_cons, not_or]
        refine ⟨?_, hseen m (List.mem_cons_of_mem _ hm)⟩
        rintro rfl
        exact hkeys.1 (List.mem_map.mpr ⟨m, hm, rfl⟩)
      have hread := ih hkeys.2 hrest fun m hm => hfields m (List.mem_cons_of_mem _ hm)
      have hnew : k ∉ seen := hseen _ List.mem_cons_self
      dsimp only at hfind hcheck
      simp only [List.map_cons, readMembers, hfind, if_neg hnew, hcheck, hread]
      rfl

/-- The members with which a record is written make up a value: they are its fields in order, each
passes the check of its field, and the value is built from them, however they are arranged. -/
structure Writes (s : Shape α) (members : List (String × Json)) (a : α) : Prop where
  fields : ∀ f, Json.Arranges f → List.Forall₂
    (fun g m => g.key = m.1 ∧ g.check (Document.ofJson (f m.2)) = .ok ()) s.fields members
  build : ∀ f, Json.Arranges f → ∀ get,
    (∀ m ∈ members, get m.1 = some (Document.ofJson (f m.2))) → s.build get = .ok a

theorem Writes.field {key : String} {d : Decoder α} {j : Json} {a : α} (h : d.Reads j a) :
    (field key d).Writes [(key, j)] a := by
  have hread : ∀ f, Json.Arranges f → d (Document.ofJson (f j)) = .ok a := h
  refine ⟨fun f hf => List.Forall₂.cons ⟨rfl, ?_⟩ List.Forall₂.nil, fun f hf get hget => ?_⟩
  · simp only [check, hread f hf]
    rfl
  · have hkey := hget (key, j) List.mem_cons_self
    simp only [Shape.field, hkey, Decoder.require]
    exact hread f hf

theorem Writes.optional {key : String} {d : Decoder α} {j : Json} {a : Option α}
    (h : (Decoder.option d).Reads j a) : (optional key d).Writes [(key, j)] a := by
  have hread : ∀ f, Json.Arranges f → Decoder.option d (Document.ofJson (f j)) = .ok a := h
  refine ⟨fun f hf => List.Forall₂.cons ⟨rfl, ?_⟩ List.Forall₂.nil, fun f hf get hget => ?_⟩
  · simp only [check, hread f hf]
    rfl
  · have hkey := hget (key, j) List.mem_cons_self
    simp only [Shape.optional, hkey]
    exact hread f hf

theorem Writes.withDefault {key : String} {d : Decoder α} {j : Json} {a : α} (h : d.Reads j a)
    (value : α) : (withDefault key d value).Writes [(key, j)] a := by
  have hread : ∀ f, Json.Arranges f → d (Document.ofJson (f j)) = .ok a := h
  refine ⟨fun f hf => List.Forall₂.cons ⟨rfl, ?_⟩ List.Forall₂.nil, fun f hf get hget => ?_⟩
  · simp only [check, hread f hf]
    rfl
  · have hkey := hget (key, j) List.mem_cons_self
    simp only [Shape.withDefault, hkey]
    exact hread f hf

theorem Writes.map {s : Shape α} {members : List (String × Json)} {a : α} (g : α → β)
    (h : s.Writes members a) : (g <$> s).Writes members (g a) := by
  refine ⟨h.fields, fun f hf get hget => ?_⟩
  change (s.build get).map g = _
  rw [h.build f hf get hget]
  rfl

theorem Writes.seq {s : Shape (α → β)} {t : Shape α} {first second : List (String × Json)}
    {g : α → β} {a : α} (hs : s.Writes first g) (ht : t.Writes second a) :
    (s <*> t).Writes (first ++ second) (g a) := by
  refine ⟨fun f hf => List.rel_append (hs.fields f hf) (ht.fields f hf), fun f hf get hget => ?_⟩
  change (do let g ← s.build get; let a ← t.build get; return g a) = _
  rw [hs.build f hf get fun m hm => hget m (List.mem_append_left _ hm),
    ht.build f hf get fun m hm => hget m (List.mem_append_right _ hm)]
  rfl

theorem find?_of_fields {f : Json → Json} {fields : List Field} {members : List (String × Json)}
    (h : List.Forall₂ (fun g m => g.key = m.1 ∧ g.check (Document.ofJson (f m.2)) = .ok ())
      fields members) (hkeys : (members.map Prod.fst).Nodup) {m : String × Json}
    (hm : m ∈ members) : ∃ g, (fields.find? fun g => g.key == m.1) = some g ∧
      g.check (Document.ofJson (f m.2)) = .ok () := by
  induction h with
  | nil => simp at hm
  | @cons g m' fields members hfirst _ ih =>
      rw [List.map_cons, List.nodup_cons] at hkeys
      rcases List.mem_cons.mp hm with rfl | hm
      · exact ⟨g, List.find?_cons_of_pos (by simp [hfirst.1]), hfirst.2⟩
      · obtain ⟨g, hfind, hcheck⟩ := ih hkeys.2 hm
        refine ⟨g, ?_, hcheck⟩
        rw [List.find?_cons_of_neg, hfind]
        rw [hfirst.1, beq_iff_eq]
        intro hsame
        exact hkeys.1 (hsame ▸ List.mem_map_of_mem hm)

/-- A record is read back from its members, whatever their order. -/
theorem Writes.decoder {s : Shape α} {members : List (String × Json)} {a : α}
    (h : s.Writes members a) (hkeys : (members.map Prod.fst).Nodup) :
    s.decoder.Reads (.object members) a := by
  intro f hf
  obtain ⟨arranged, hobject, hperm⟩ := hf.object members hkeys
  let nodes := arranged.map fun m => (m.1, Document.ofJson m.2)
  have hnodes : nodes.Perm (members.map fun m => (m.1, Document.ofJson (f m.2))) := by
    have hmap := hperm.map fun m => (m.1, Document.ofJson m.2)
    rwa [List.map_map] at hmap
  have hnodup : (nodes.map Prod.fst).Nodup := by
    apply (hnodes.map Prod.fst).nodup_iff.mpr
    rw [List.map_map]
    exact hkeys
  -- Each member is checked by its field, which is found by the key in whatever order they come.
  have hread : readMembers s.fields (nodes.map fun m => (some m.1, m.2)) [] = .ok nodes := by
    apply readMembers_eq hnodup (by simp)
    intro n hn
    obtain ⟨m, hm, rfl⟩ := List.mem_map.mp (hnodes.mem_iff.mp hn)
    exact find?_of_fields (h.fields f hf) hkeys hm
  have hbuild : (s.build fun key => nodes.lookup key) = .ok a := by
    apply h.build f hf
    intro m hm
    apply lookup_of_mem hnodup
    exact hnodes.mem_iff.mpr (List.mem_map_of_mem hm)
  have hmembers : Document.ofMembers arranged = nodes.map fun m => (some m.1, m.2) := by
    rw [Document.ofMembers_eq, List.map_map]
    rfl
  rw [Decoder.ofJson, hobject, Document.ofJson, hmembers]
  simp only [Shape.decoder, hread]
  exact hbuild

/-! ## Fields that a record cannot lack -/

/-- No value is built without a member of the key. -/
def Requires (s : Shape α) (key : String) : Prop :=
  ∀ get : String → Option Node, get key = none → ∃ fault, s.build get = .error fault

theorem Requires.field (key : String) (d : Decoder α) : (field key d).Requires key := by
  intro get hget
  refine ⟨.unfit, ?_⟩
  simp only [Shape.field, hget]
  rfl

theorem Requires.map {s : Shape α} {key : String} (h : s.Requires key) (g : α → β) :
    (g <$> s).Requires key := by
  intro get hget
  obtain ⟨fault, hfault⟩ := h get hget
  refine ⟨fault, ?_⟩
  change (s.build get).map g = _
  rw [hfault]
  rfl

theorem Requires.left {s : Shape (α → β)} {key : String} (h : s.Requires key) (t : Shape α) :
    (s <*> t).Requires key := by
  intro get hget
  obtain ⟨fault, hfault⟩ := h get hget
  refine ⟨fault, ?_⟩
  change (do let g ← s.build get; let a ← t.build get; return g a) = _
  rw [hfault]
  rfl

theorem Requires.right {t : Shape α} {key : String} (s : Shape (α → β)) (h : t.Requires key) :
    (s <*> t).Requires key := by
  intro get hget
  obtain ⟨fault, hfault⟩ := h get hget
  change ∃ fault, (do let g ← s.build get; let a ← t.build get; return g a) = _
  cases s.build get with
  | error first => exact ⟨first, rfl⟩
  | ok g =>
      rw [hfault]
      exact ⟨fault, rfl⟩

/-- Only members of the object are found. -/
theorem mem_of_readMembers {fields : List Field} {members : List (Option String × Node)}
    {seen : List String} {found : List (String × Node)}
    (h : readMembers fields members seen = .ok found) {m : String × Node} (hm : m ∈ found) :
    (some m.1, m.2) ∈ members := by
  induction members generalizing seen found with
  | nil =>
      cases h
      simp at hm
  | cons first rest ih =>
      rcases first with ⟨_ | k, node⟩
      · simp [readMembers] at h
      rw [readMembers] at h
      split at h
      next =>
        split at h
        · exact List.mem_cons_of_mem _ (ih h hm)
        · cases h
      next f _ =>
        split at h
        · cases h
        obtain ⟨-, -, h⟩ := bind_ok h
        obtain ⟨others, hothers, h⟩ := bind_ok h
        cases h
        rcases List.mem_cons.mp hm with rfl | hm
        · exact List.mem_cons_self
        · exact List.mem_cons_of_mem _ (ih hothers hm)

/-- An object that lacks a field of a record is not read as one, however it is arranged. -/
theorem Requires.decoder {s : Shape α} {key : String} (h : s.Requires key)
    {members : List (String × Json)} (hkeys : (members.map Prod.fst).Nodup)
    (hkey : key ∉ members.map Prod.fst) {f : Json → Json} (hf : Json.Arranges f) :
    ∃ fault, s.decoder.ofJson (f (.object members)) = .error fault := by
  obtain ⟨arranged, hobject, hperm⟩ := hf.object members hkeys
  rw [Decoder.ofJson, hobject, Document.ofJson, Document.ofMembers_eq, Shape.decoder]
  cases hread : readMembers s.fields (arranged.map fun m => (some m.1, Document.ofJson m.2)) [] with
  | error fault => exact ⟨fault, rfl⟩
  | ok found =>
  have hlacks : found.lookup key = none := by
    rw [List.lookup_eq_none_iff]
    intro m hm
    rw [bne_iff_ne]
    rintro rfl
    obtain ⟨a, ha, heq⟩ := List.mem_map.mp (mem_of_readMembers hread hm)
    obtain ⟨b, hb, rfl⟩ := List.mem_map.mp (hperm.mem_iff.mp ha)
    rw [Prod.mk.injEq, Option.some.injEq] at heq
    exact hkey (List.mem_map.mpr ⟨b, hb, heq.1⟩)
  exact h _ hlacks

end Shape

/-- A value that may be missing is read as it is where it is there, if null does not read as one. -/
theorem Decoder.Reads.present {α : Type} {d : Decoder α} {j : Json} {a : α} (h : d.Reads j a)
    (hnull : ∀ b, d .null ≠ .ok b) : (Decoder.option d).Reads j (some a) := by
  intro f hf
  have hread : d (Document.ofJson (f j)) = .ok a := h f hf
  rw [Decoder.ofJson, Decoder.option]
  · rw [hread]
    rfl
  · intro hnode
    rw [hnode] at hread
    exact hnull a hread

theorem Decoder.Reads.absent {α : Type} (d : Decoder α) :
    (Decoder.option d).Reads .null none := by
  intro f hf
  rw [Decoder.ofJson, hf.null]
  rfl

/-- An array is read item by item. -/
theorem Decoder.Reads.listOf {α β : Type} {d : Decoder β} {toJson : α → Json} {g : α → β}
    {as : List α} (h : ∀ a ∈ as, d.Reads (toJson a) (g a)) :
    (Decoder.list d).Reads (.array (as.map toJson)) (as.map g) := by
  intro f hf
  have hitems : Decoder.items d (as.map fun a => Document.ofJson (f (toJson a))) =
      .ok (as.map g) := by
    induction as with
    | nil => rfl
    | cons a rest ih =>
        have hfirst : d (Document.ofJson (f (toJson a))) = .ok (g a) :=
          h a List.mem_cons_self f hf
        have hrest := ih fun b hb => h b (List.mem_cons_of_mem _ hb)
        simp only [List.map_cons, Decoder.items, hfirst, hrest]
        rfl
  rw [Decoder.ofJson, hf.array, Document.ofJson, Document.ofItems_eq, List.map_map, List.map_map]
  change Decoder.list d (.array (as.map fun a => Document.ofJson (f (toJson a))) true) = _
  simp only [Decoder.list, hitems]
  rfl

theorem Decoder.Reads.list {α : Type} {d : Decoder α} {toJson : α → Json} {as : List α}
    (h : ∀ a ∈ as, d.Reads (toJson a) a) : (Decoder.list d).Reads (.array (as.map toJson)) as := by
  have hread := Decoder.Reads.listOf h
  rwa [List.map_id'] at hread

/-! ## What has been read -/

/-- Whatever a decoder gives has a property. -/
def Decoder.Yields {α : Type} (d : Decoder α) (P : α → Prop) : Prop :=
  ∀ node a, d node = .ok a → P a

theorem Decoder.Yields.trivial {α : Type} (d : Decoder α) : d.Yields fun _ => True :=
  fun _ _ _ => True.intro

theorem Decoder.Yields.reject {α : Type} (P : α → Prop) : Decoder.reject.Yields P := by
  intro node a h
  unfold Decoder.reject at h
  split at h <;> cases h

theorem Decoder.Yields.items {α : Type} {d : Decoder α} {P : α → Prop} (h : d.Yields P)
    {nodes : List Document.Node} {as : List α} (has : Decoder.items d nodes = .ok as) :
    ∀ a ∈ as, P a := by
  induction nodes generalizing as with
  | nil =>
      cases has
      simp
  | cons node rest ih =>
      obtain ⟨first, hfirst, has⟩ := bind_ok has
      obtain ⟨others, hothers, has⟩ := bind_ok has
      cases has
      exact List.forall_mem_cons.mpr ⟨h node first hfirst, ih hothers⟩

theorem Decoder.Yields.list {α : Type} {d : Decoder α} {P : α → Prop} (h : d.Yields P) :
    (Decoder.list d).Yields fun as => ∀ a ∈ as, P a := by
  intro node as has
  unfold Decoder.list at has
  split at has
  next nodes closed =>
    obtain ⟨items, hitems, has⟩ := bind_ok has
    split at has
    · cases has
      exact h.items hitems
    · cases has
  next => exact Yields.reject (fun as => ∀ a ∈ as, P a) _ as has

namespace Shape

variable {α β : Type}

/-- Whatever is built from the members of a record has a property. -/
def Yields (s : Shape α) (P : α → Prop) : Prop :=
  ∀ get a, s.build get = .ok a → P a

theorem Yields.of_forall {s : Shape α} {P : α → Prop} (h : ∀ a, P a) : s.Yields P :=
  fun _ a _ => h a

theorem Yields.field {key : String} {d : Decoder α} {P : α → Prop} (h : d.Yields P) :
    (field key d).Yields P := by
  intro get a ha
  obtain ⟨node, -, ha⟩ := bind_ok ha
  exact h node a ha

theorem Yields.map {s : Shape α} {g : α → β} {P : β → Prop} (h : s.Yields fun a => P (g a)) :
    (g <$> s).Yields P := by
  intro get b hb
  change (s.build get).map g = .ok b at hb
  cases ha : s.build get with
  | error fault =>
      rw [ha] at hb
      cases hb
  | ok a =>
      rw [ha] at hb
      cases hb
      exact h get a ha

theorem Yields.seq {s : Shape (α → β)} {t : Shape α} {P : β → Prop} {Q : α → Prop}
    (ht : t.Yields Q) (hs : s.Yields fun g => ∀ a, Q a → P (g a)) : (s <*> t).Yields P := by
  intro get b hb
  obtain ⟨g, hg, hb⟩ := bind_ok hb
  obtain ⟨a, ha, hb⟩ := bind_ok hb
  cases hb
  exact hs get g hg a (ht get a ha)

theorem Yields.left {s : Shape (α → β)} {t : Shape α} {P : β → Prop}
    (hs : s.Yields fun g => ∀ a, P (g a)) : (s <*> t).Yields P :=
  .seq (.of_forall fun _ => True.intro) fun get g hg a _ => hs get g hg a

theorem Yields.decoder {s : Shape α} {P : α → Prop} (h : s.Yields P) : s.decoder.Yields P := by
  intro node a ha
  unfold Shape.decoder at ha
  split at ha
  next members closed =>
    obtain ⟨found, -, ha⟩ := bind_ok ha
    split at ha
    · exact h _ a ha
    · cases ha
  next nodes closed =>
    obtain ⟨found, -, ha⟩ := bind_ok ha
    exact h _ a ha
  next => exact Decoder.Yields.reject P _ a ha

end Shape

end KeyedLedger
