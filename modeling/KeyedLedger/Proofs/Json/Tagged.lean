import KeyedLedger.Proofs.Json.Record

/-! # Records that are told apart by a tag

What is read as one of several records is told from the parts of its members under their keys
(`Document.valuesOf`): the tag stands there once and names the record, the fields of the record
stand there once each, and whatever else there is only has to be JSON (`tagged_object_iff`,
`field_object_iff`). In an array the name of the record comes first, and then its fields in their
order and nothing else (`tagged_array_iff`, `field_array_iff`).
-/

namespace KeyedLedger

namespace Document

/-- The parts that stand under a key, in the order in which they were written. -/
def valuesOf (key : String) (members : List (Option String × Node)) : List Node :=
  (members.filter fun m => m.1 == some key).map Prod.snd

variable {key : String} {node : Node} {members : List (Option String × Node)}

theorem valuesOf_cons_self : valuesOf key ((some key, node) :: members) =
    node :: valuesOf key members := by
  rw [valuesOf, List.filter_cons_of_pos (by simp), List.map_cons, valuesOf]

theorem valuesOf_cons_of_ne {other : Option String} (hne : other ≠ some key) :
    valuesOf key ((other, node) :: members) = valuesOf key members := by
  rw [valuesOf, List.filter_cons_of_neg (by simpa using hne), valuesOf]

/-- What stands under a key is not changed by leaving out another key. -/
theorem valuesOf_filter {tag : String} (hne : key ≠ tag) :
    valuesOf key (members.filter fun m => m.1 != some tag) = valuesOf key members := by
  rw [valuesOf, List.filter_filter, valuesOf]
  refine congrArg (List.map Prod.snd) (List.filter_congr fun m _ => ?_)
  by_cases hm : m.1 = some key
  · simp [hm, hne]
  · simp [hm]

/-! ## Parts that are JSON throughout -/

theorem Node.membersAreWellFormed_iff :
    membersAreWellFormed members = true ↔ ∀ m ∈ members, m.2.isWellFormed = true := by
  induction members with
  | nil => simp [membersAreWellFormed]
  | cons m rest ih => rw [membersAreWellFormed, Bool.and_eq_true, ih, List.forall_mem_cons]

mutual

/-- A part that has a value can be passed over. -/
theorem Node.isWellFormed_of_toJson? {depth : Nat} :
    ∀ {node : Node}, (node.toJson? depth).isSome = true → node.isWellFormed = true
  | .null, _ => by rw [isWellFormed]
  | .bool _, _ => by rw [isWellFormed]
  | .number _, _ => by rw [isWellFormed]
  | .string _, _ => by rw [isWellFormed]
  | .broken, h => by
      rw [toJson?] at h
      cases h
  | .array items closed, h => by
      rw [toJson?] at h
      split at h
      next => cases h
      next hopen =>
        rw [Option.isSome_map] at h
        rw [isWellFormed, Node.areWellFormed_of_itemsToJson? h]
        simpa using (not_or.mp hopen).2
  | .object members closed, h => by
      rw [toJson?] at h
      split at h
      next => cases h
      next hopen =>
        rw [Option.isSome_map] at h
        rw [isWellFormed, Node.membersAreWellFormed_iff.mpr fun m hm =>
          (Node.sound_of_membersToJson? h m hm).2]
        simpa using (not_or.mp hopen).2

theorem Node.areWellFormed_of_itemsToJson? {depth : Nat} :
    ∀ {items : List Node}, (itemsToJson? depth items).isSome = true →
      Node.areWellFormed items = true
  | [], _ => by rw [areWellFormed]
  | node :: rest, h => by
      rw [itemsToJson?] at h
      obtain ⟨values, h⟩ := Option.isSome_iff_exists.mp h
      obtain ⟨value, hvalue, h⟩ := Option.bind_eq_some_iff.mp h
      obtain ⟨others, hothers, -⟩ := Option.bind_eq_some_iff.mp h
      rw [areWellFormed, Node.isWellFormed_of_toJson? (Option.isSome_of_eq_some hvalue),
        Node.areWellFormed_of_itemsToJson? (Option.isSome_of_eq_some hothers), Bool.true_and]

/-- Where the members of an object make up a value, each key is spelled and each part is JSON. -/
theorem Node.sound_of_membersToJson? {depth : Nat} :
    ∀ {members : List (Option String × Node)} {done : List (String × Json)},
      (membersToJson? depth members done).isSome = true →
      ∀ m ∈ members, m.1.isSome = true ∧ m.2.isWellFormed = true
  | [], _, _ => nofun
  | (key, node) :: rest, done, h => by
      rw [membersToJson?] at h
      obtain ⟨values, h⟩ := Option.isSome_iff_exists.mp h
      obtain ⟨spelled, hkey, h⟩ := Option.bind_eq_some_iff.mp h
      obtain ⟨value, hvalue, h⟩ := Option.bind_eq_some_iff.mp h
      exact List.forall_mem_cons.mpr ⟨⟨Option.isSome_of_eq_some hkey,
        Node.isWellFormed_of_toJson? (Option.isSome_of_eq_some hvalue)⟩,
        Node.sound_of_membersToJson? (Option.isSome_of_eq_some h)⟩

end

end Document

namespace Decoder

open Document (Node)

variable {α : Type} {node : Node}

theorem json_ok_iff {depth : Nat} :
    (∃ j, json depth node = .ok j) ↔ (node.toJson? depth).isSome = true := by
  rw [json]
  cases node.toJson? depth <;> simp

theorem string_ok_iff {s : String} :
    string node = .ok s ↔ node = .string (some s) := by
  refine ⟨fun h => ?_, fun h => by rw [h, string]⟩
  unfold string at h
  split at h
  · cases h
    rfl
  next => exact (Yields.reject (fun _ => False) _ _ h).elim

theorem require_ok_iff {o : Option α} {a : α} : require o = .ok a ↔ o = some a := by
  cases o <;> simp [require]

/-- A list of strings is an array of them. -/
theorem items_string_ok_iff {nodes : List Node} {ss : List String} :
    items string nodes = .ok ss ↔ nodes = ss.map fun s => .string (some s) := by
  constructor
  · intro h
    induction nodes generalizing ss with
    | nil =>
        cases h
        rfl
    | cons first rest ih =>
        obtain ⟨s, hs, h⟩ := bind_ok h
        obtain ⟨others, hothers, h⟩ := bind_ok h
        cases h
        rw [string_ok_iff.mp hs, ih hothers, List.map_cons]
  · rintro rfl
    induction ss with
    | nil => rfl
    | cons s ss ih =>
        rw [List.map_cons, items, string, ih]
        rfl

theorem list_string_ok_iff {ss : List String} :
    list string node = .ok ss ↔ node = Document.ofJson (.array (ss.map .string)) := by
  have hwritten : Document.ofJson (.array (ss.map .string)) =
      .array (ss.map fun s => .string (some s)) true := by
    rw [Document.ofJson, Document.ofItems_eq, List.map_map]
    rfl
  rw [hwritten]
  constructor
  · intro h
    unfold list at h
    split at h
    next nodes closed =>
      obtain ⟨found, hfound, h⟩ := bind_ok h
      split at h
      next hclosed =>
        cases h
        rw [items_string_ok_iff.mp hfound, hclosed]
      next => cases h
    next => exact (Yields.reject (fun _ => False) _ _ h).elim
  · rintro rfl
    rw [list, items_string_ok_iff.mpr rfl]
    rfl

end Decoder

namespace Shape

open Document (Node valuesOf)

variable {α β : Type} {members : List (Option String × Node)}

/-- Each key is spelled and each part is JSON. -/
def Sound (members : List (Option String × Node)) : Prop :=
  ∀ m ∈ members, m.1.isSome = true ∧ m.2.isWellFormed = true

/-- Members that belong to no field are passed over. -/
theorem readMembers_cons_of_ne {fields : List Field} {m : Option String × Node}
    (h : Sound (m :: members)) (hne : ∀ f ∈ fields, m.1 ≠ some f.key) (seen : List String) :
    readMembers fields (m :: members) seen = readMembers fields members seen := by
  obtain ⟨hkey, hformed⟩ := h m List.mem_cons_self
  rcases m with ⟨_ | key, node⟩
  · cases hkey
  have hnone : (fields.find? fun f => f.key == key) = none := by
    rw [List.find?_eq_none]
    intro f hf hsame
    exact hne f hf (congrArg some (beq_iff_eq.mp hsame).symm)
  rw [readMembers, hnone]
  exact if_pos hformed

theorem readMembers_nil (h : Sound members) (seen : List String) :
    readMembers [] members seen = .ok [] := by
  induction members with
  | nil => rfl
  | cons m rest ih =>
      rw [readMembers_cons_of_ne h (by simp)]
      exact ih fun m hm => h m (List.mem_cons_of_mem _ hm)

variable {f : Field} {found : List (String × Node)}

/-- A field that has been found must not come again. -/
theorem readMembers_seen_iff (h : Sound members) : readMembers [f] members [f.key] = .ok found ↔
    valuesOf f.key members = [] ∧ found = [] := by
  induction members with
  | nil => simp [readMembers, valuesOf, eq_comm]
  | cons m rest ih =>
      by_cases hkey : m.1 = some f.key
      · rcases m with ⟨_, node⟩
        obtain rfl := hkey
        rw [Document.valuesOf_cons_self]
        simp [readMembers]
      · rw [readMembers_cons_of_ne h (by simpa using hkey), Document.valuesOf_cons_of_ne hkey]
        exact ih fun m hm => h m (List.mem_cons_of_mem _ hm)

/-- One field is found where its key stands once. -/
theorem readMembers_single_iff (h : Sound members) : readMembers [f] members [] = .ok found ↔
    valuesOf f.key members = [] ∧ found = [] ∨
      ∃ node, valuesOf f.key members = [node] ∧ f.check node = .ok () ∧
        found = [(f.key, node)] := by
  induction members with
  | nil => simp [readMembers, valuesOf, eq_comm]
  | cons m rest ih =>
      have hrest : Sound rest := fun m hm => h m (List.mem_cons_of_mem _ hm)
      by_cases hkey : m.1 = some f.key
      · rcases m with ⟨_, node⟩
        obtain rfl := hkey
        rw [Document.valuesOf_cons_self, readMembers]
        simp only [List.find?_cons, beq_self_eq_true, List.not_mem_nil, if_false]
        constructor
        · intro hread
          obtain ⟨⟨⟩, hcheck, hread⟩ := bind_ok hread
          obtain ⟨others, hothers, hread⟩ := bind_ok hread
          obtain ⟨hnone, rfl⟩ := (readMembers_seen_iff hrest).mp hothers
          cases hread
          exact .inr ⟨node, by rw [hnone], hcheck, rfl⟩
        · rintro (⟨hnone, -⟩ | ⟨node', hvalues, hcheck, rfl⟩)
          · cases hnone
          · obtain ⟨rfl, hnone⟩ := List.cons.inj hvalues
            rw [hcheck, (readMembers_seen_iff hrest).mpr ⟨hnone, rfl⟩]
            rfl
      · rw [readMembers_cons_of_ne h (by simpa using hkey), Document.valuesOf_cons_of_ne hkey]
        exact ih hrest

variable {key : String} {d : Decoder α} {a : α}

theorem check_ok {node : Node} (h : d node = .ok a) : check d node = .ok () := by
  rw [check, h]
  rfl

/-- A record of one field is read from an object in which the field stands once. -/
theorem field_object_iff (h : Sound members) :
    (field key d).decoder (.object members true) = .ok a ↔
      ∃ node, valuesOf key members = [node] ∧ d node = .ok a := by
  constructor
  · intro hread
    obtain ⟨found, hfound, hread⟩ := bind_ok hread
    rcases (readMembers_single_iff h).mp hfound with ⟨-, rfl⟩ | ⟨node, hvalues, -, rfl⟩
    · cases hread
    · refine ⟨node, hvalues, ?_⟩
      simpa [field, Decoder.require, Except.bind] using hread
  · rintro ⟨node, hvalues, hnode⟩
    have hfound := (readMembers_single_iff (f := ⟨key, false, check d⟩) h).mpr
      (.inr ⟨node, hvalues, check_ok hnode, rfl⟩)
    simp only [decoder, field, hfound]
    change (Decoder.require ([(key, node)].lookup key)).bind d = _
    rw [List.lookup_cons_self]
    exact hnode

theorem field_array_singleton (key : String) (d : Decoder α) (node : Node) :
    (field key d).decoder (.array [node] true) = d node := by
  cases hnode : d node with
  | error fault =>
      simp only [decoder, field, if_true, readItems, check, hnode]
      rfl
  | ok a =>
      simp only [decoder, field, if_true, readItems, check, hnode]
      change (Decoder.require ([(key, node)].lookup key)).bind d = _
      rw [List.lookup_cons_self]
      exact hnode

/-- A record of one field is read from an array of one item. -/
theorem field_array_iff {nodes : List Node} : (field key d).decoder (.array nodes true) = .ok a ↔
    ∃ node, nodes = [node] ∧ d node = .ok a := by
  rcases nodes with _ | ⟨node, _ | ⟨second, rest⟩⟩
  · refine ⟨nofun, ?_⟩
    rintro ⟨node, hnodes, -⟩
    cases hnodes
  · rw [field_array_singleton]
    refine ⟨fun hnode => ⟨node, rfl, hnode⟩, ?_⟩
    rintro ⟨node', hnodes, hnode⟩
    cases hnodes
    exact hnode
  · refine ⟨fun hread => ?_, ?_⟩
    · obtain ⟨found, hfound, -⟩ := bind_ok hread
      obtain ⟨-, -, hfound⟩ := bind_ok hfound
      cases hfound
    · rintro ⟨node', hnodes, -⟩
      cases hnodes

/-- A record without fields is read from any object. -/
theorem empty_object_iff (h : Sound members) {b : α} :
    (empty b).decoder (.object members true) = .ok a ↔ b = a := by
  have hread : (empty b).decoder (.object members true) = .ok b := by
    simp only [decoder, empty, readMembers_nil h]
    rfl
  rw [hread, Except.ok.injEq]

/-- A record without fields is read from an array without items. -/
theorem empty_array_iff {nodes : List Node} {b : α} :
    (empty b).decoder (.array nodes true) = .ok a ↔ nodes = [] ∧ b = a := by
  rcases nodes with _ | ⟨node, rest⟩
  · exact ⟨fun hread => ⟨rfl, Except.ok.inj hread⟩, fun ⟨_, hsame⟩ => congrArg Except.ok hsame⟩
  · exact ⟨nofun, fun ⟨hnodes, _⟩ => by cases hnodes⟩

/-- A record is read as what is made of it. -/
theorem decoder_map (g : α → β) (s : Shape α) (node : Node) :
    (g <$> s).decoder node = (s.decoder node).map g := by
  cases node with
  | object members closed =>
      simp only [decoder]
      change (do let found ← readMembers s.fields members []; _) = _
      cases readMembers s.fields members [] with
      | error fault => rfl
      | ok found => cases closed <;> rfl
  | array nodes closed =>
      simp only [decoder]
      change (do let found ← readItems s.fields _; _) = _
      cases readItems s.fields (if closed then nodes else nodes ++ [.broken]) <;> rfl
  | string text => cases text <;> rfl
  | null | bool | number | broken => rfl

/-! ## The tag -/

theorem Sound.of_toJson? {depth : Nat}
    (h : ((Node.object members true).toJson? depth).isSome = true) : Sound members := by
  rw [Node.toJson?] at h
  split at h
  next => cases h
  next => exact Node.sound_of_membersToJson? (Option.isSome_map.symm.trans h)

theorem Sound.filter (h : Sound members) (p : Option String × Node → Bool) :
    Sound (members.filter p) :=
  fun m hm => h m (List.mem_of_mem_filter hm)

variable {tag : String} {variant? : String → Option (Decoder α)} {depth : Nat}

/-- One of several records is read from an object that is JSON throughout, if the tag stands in it
once and names the record, and the other members make up the record. -/
theorem tagged_object_iff : tagged tag variant? depth (.object members true) = .ok a ↔
    ((Node.object members true).toJson? depth).isSome = true ∧
      ∃ name d, valuesOf tag members = [.string (some name)] ∧ variant? name = some d ∧
        d (.object (members.filter fun m => m.1 != some tag) true) = .ok a := by
  rw [tagged, valuesOf, ← Decoder.json_ok_iff]
  constructor
  · intro h
    obtain ⟨j, hjson, h⟩ := bind_ok h
    split at h
    next key tagNode htag =>
      obtain ⟨name, hname, h⟩ := bind_ok h
      obtain ⟨d, hd, h⟩ := bind_ok h
      rw [htag, List.map_singleton, Decoder.string_ok_iff.mp hname]
      exact ⟨⟨j, hjson⟩, name, d, rfl, Decoder.require_ok_iff.mp hd, h⟩
    next => cases h
  · rintro ⟨⟨j, hjson⟩, name, d, htag, hd, h⟩
    obtain ⟨⟨key, tagNode⟩, hfilter, rfl⟩ := List.map_eq_singleton_iff.mp htag
    rw [hjson, hfilter]
    change (Decoder.require (variant? name)).bind (fun d => d (.object _ true)) = .ok a
    rw [Decoder.require_ok_iff.mpr hd]
    exact h

/-- From an array it is read if the name of the record comes first, and the other items make up the
record. -/
theorem tagged_array_iff {nodes : List Node} :
    tagged tag variant? depth (.array nodes true) = .ok a ↔
    ((Node.array nodes true).toJson? depth).isSome = true ∧
      ∃ name d rest, nodes = .string (some name) :: rest ∧ variant? name = some d ∧
        d (.array rest true) = .ok a := by
  rw [← Decoder.json_ok_iff]
  rcases nodes with _ | ⟨tagNode, rest⟩
  · simp [tagged, Decoder.reject]
  rw [tagged]
  constructor
  · intro h
    obtain ⟨j, hjson, h⟩ := bind_ok h
    obtain ⟨name, hname, h⟩ := bind_ok h
    obtain ⟨d, hd, h⟩ := bind_ok h
    rw [Decoder.string_ok_iff.mp hname] at hjson ⊢
    exact ⟨⟨j, hjson⟩, name, d, rest, rfl, Decoder.require_ok_iff.mp hd, h⟩
  · rintro ⟨⟨j, hjson⟩, name, d, rest', hnodes, hd, h⟩
    obtain ⟨rfl, rfl⟩ := List.cons.inj hnodes
    rw [hjson]
    change (Decoder.require (variant? name)).bind (fun d => d (.array rest true)) = .ok a
    rw [Decoder.require_ok_iff.mpr hd]
    exact h

/-- From any other part no record is read. -/
theorem tagged_closed {node : Node} (h : tagged tag variant? depth node = .ok a) :
    (∃ members, node = .object members true) ∨ ∃ nodes, node = .array nodes true := by
  unfold tagged at h
  split at h
  · exact .inl ⟨_, rfl⟩
  · exact .inr ⟨_, rfl⟩
  next => exact (Decoder.Yields.reject (fun _ => False) _ _ h).elim

end Shape

end KeyedLedger
