import KeyedLedger.Proofs.Json.Locality

/-! # One value of a record in the place of another

The text of a record up to one of its values (`Leads`) can be completed with the text of any value
and whatever comes behind it. The documents that come of it differ in nothing but that value
(`Leads.document`), and so do the records read from them if they make the same of it but for a
change to the record (`Shape.decoder_places`).
-/

namespace KeyedLedger

namespace Document

open Text

variable {s x : List Symbol}

/-! ## The text before a value -/

/-- The text of some members of an object, each with the comma behind it. -/
inductive MembersText : List Symbol → List (Option String × Node) → Prop
  | nil : MembersText [] []
  | cons {k v s : List Symbol} {key : Option String} {node : Node}
      {members : List (Option String × Node)} : Spells k (.string key) → Spells v node →
      MembersText s members →
      MembersText (k ++ .char ':' :: (v ++ .char ',' :: s)) ((key, node) :: members)

/-- The text of some items of an array, each with the comma behind it. -/
inductive ItemsText : List Symbol → List Node → Prop
  | nil : ItemsText [] []
  | cons {v s : List Symbol} {node : Node} {nodes : List Node} : Spells v node →
      ItemsText s nodes → ItemsText (v ++ .char ',' :: s) (node :: nodes)

/-- The text of a record up to a value: that of the member with a key if the record is an object,
or that of the item at an index if it is an array. -/
inductive Leads (key : String) (index : Nat) : List Symbol → Prop
  | member {blank s k gap : List Symbol} {members : List (Option String × Node)} :
      skipSpace blank = [] → MembersText s members → Spells k (.string (some key)) →
      skipSpace gap = [] → Leads key index (blank ++ .char '\x7b' :: (s ++ (k ++ .char ':' :: gap)))
  | item {blank s gap : List Symbol} {nodes : List Node} :
      skipSpace blank = [] → ItemsText s nodes → nodes.length = index → skipSpace gap = [] →
      Leads key index (blank ++ .char '[' :: (s ++ gap))

/-! ## What comes behind a value -/

/-- The members of an object behind the value of one of them. -/
def otherMembers (s : List Symbol) : List (Option String × Node) × Option (List Symbol) :=
  match skipSpace s with
  | .char '\x7d' :: rest => ([], some rest)
  | .char ',' :: rest => members rest
  | _ => ([], none)

/-- The items of an array behind one of them. -/
def otherItems (s : List Symbol) : List Node × Option (List Symbol) :=
  match skipSpace s with
  | .char ']' :: rest => ([], some rest)
  | .char ',' :: rest => items rest
  | _ => ([], none)

theorem otherItems_of_not (hclose : ∀ rest, skipSpace x = .char ']' :: rest → False)
    (hcomma : ∀ rest, skipSpace x = .char ',' :: rest → False) : otherItems x = ([], none) := by
  rw [otherItems]
  split
  next rest heq => exact absurd heq (hclose rest)
  next rest heq => exact absurd heq (hcomma rest)
  next => rfl

theorem otherMembers_of_not (hclose : ∀ rest, skipSpace x = .char '\x7d' :: rest → False)
    (hcomma : ∀ rest, skipSpace x = .char ',' :: rest → False) : otherMembers x = ([], none) := by
  rw [otherMembers]
  split
  next rest heq => exact absurd heq (hclose rest)
  next rest heq => exact absurd heq (hcomma rest)
  next => rfl

/-- An item is read, and then the others. -/
theorem items_append {v : List Symbol} {node : Node} (h : Spells v node) (hx : Apart x) :
    items (v ++ x) = (node :: (otherItems x).1, (otherItems x).2) := by
  obtain ⟨rest, hvalue, hskip⟩ := h.value_append hx
  have hpos : 0 < v.length := List.length_pos_iff.mpr h.ne_nil
  rw [items, readItems, readValue_eq_value (Nat.le_refl _), hvalue]
  simp only [hskip]
  split
  next rest' hclose => simp only [otherItems, hclose]
  next rest' hcomma =>
    have hlength := length_of_skipSpace hcomma
    have hfuel : 2 * rest'.length + 2 ≤ 2 * (v ++ x).length + 1 := by
      rw [List.length_append]
      omega
    simp only [otherItems, hcomma, readItems_eq_items hfuel]
  next hclose hcomma => rw [otherItems_of_not hclose hcomma]

/-- A member is read, and then the others. -/
theorem members_append {k v : List Symbol} {key : Option String} {node : Node}
    (hk : Spells k (.string key)) (hv : Spells v node) (hx : Apart x) :
    members (k ++ .char ':' :: (v ++ x)) =
      ((key, node) :: (otherMembers x).1, (otherMembers x).2) := by
  obtain ⟨t, rest, hquote, hkey, hblank⟩ := hk.readString
  obtain ⟨rest', hvalue, hskip⟩ := hv.value_append hx
  have hcolon : skipSpace (rest ++ .char ':' :: (v ++ x)) = .char ':' :: (v ++ x) :=
    skipSpace_append_blank hblank
  have hfuel : 2 * (v ++ x).length + 1 ≤ 2 * (k ++ .char ':' :: (v ++ x)).length + 1 := by
    simp only [List.length_append, List.length_cons]
    omega
  rw [members, readMembers, skipSpace_append_of_eq hquote]
  simp only [(readString_append hkey).1, hcolon, readValue_eq_value hfuel, hvalue, hskip]
  split
  next rest' hclose => simp only [otherMembers, hclose]
  next rest' hcomma =>
    have hlength := length_of_skipSpace hcomma
    have hfuel' : 2 * rest'.length + 2 ≤ 2 * (k ++ .char ':' :: (v ++ x)).length + 1 := by
      simp only [List.length_append, List.length_cons]
      omega
    simp only [otherMembers, hcomma, readMembers_eq_members hfuel']
  next hclose hcomma => rw [otherMembers_of_not hclose hcomma]

theorem apart_comma (s : List Symbol) : Apart (.char ',' :: s) := by
  simp [Apart]

theorem MembersText.members_append {before : List (Option String × Node)}
    (h : MembersText s before) (t : List Symbol) :
    members (s ++ t) = (before ++ (members t).1, (members t).2) := by
  induction h with
  | nil => rfl
  | @cons k v s key node before hk hv _ ih =>
      rw [List.append_assoc, List.cons_append, List.append_assoc, List.cons_append,
        Document.members_append hk hv (apart_comma _)]
      change ((key, node) :: (members (s ++ t)).1, (members (s ++ t)).2) = _
      rw [ih]
      rfl

theorem ItemsText.items_append {before : List Node} (h : ItemsText s before) (t : List Symbol) :
    items (s ++ t) = (before ++ (items t).1, (items t).2) := by
  induction h with
  | nil => rfl
  | @cons v s node before hv _ ih =>
      rw [List.append_assoc, List.cons_append, Document.items_append hv (apart_comma _)]
      change (node :: (items (s ++ t)).1, (items (s ++ t)).2) = _
      rw [ih]
      rfl

/-! ## The document -/

theorem skipSpace_skipSpace (s : List Symbol) : skipSpace (skipSpace s) = skipSpace s := by
  induction s with
  | nil => rfl
  | cons first s ih =>
      cases first with
      | stray => rfl
      | char c =>
          rw [skipSpace]
          split
          next => exact ih
          next hc => rw [skipSpace, if_neg hc]

theorem items_skipSpace (s : List Symbol) : items (skipSpace s) = items s := by
  have hfuel : 2 * (skipSpace s).length + 2 ≤ 2 * s.length + 2 := by
    have := length_skipSpace_le s
    omega
  rw [← readItems_eq_items hfuel, items, readItems, readItems,
    readValue_congr (skipSpace_skipSpace s)]

theorem members_skipSpace (s : List Symbol) : members (skipSpace s) = members s := by
  have hfuel : 2 * (skipSpace s).length + 2 ≤ 2 * s.length + 2 := by
    have := length_skipSpace_le s
    omega
  rw [← readMembers_eq_members hfuel, members, readMembers, readMembers, skipSpace_skipSpace]

theorem value_array {blank : List Symbol} (hblank : skipSpace blank = [])
    (hs : ∀ rest, skipSpace s ≠ .char ']' :: rest) :
    value (blank ++ .char '[' :: s) = (.array (items s).1 (items s).2.isSome, (items s).2) := by
  have hfuel : 2 * (skipSpace s).length + 2 ≤ 2 * (blank ++ .char '[' :: s).length := by
    have := length_skipSpace_le s
    simp only [List.length_append, List.length_cons]
    omega
  have hskip : skipSpace (blank ++ .char '[' :: s) = .char '[' :: s :=
    skipSpace_append_blank hblank
  rw [value, readValue, hskip]
  change readArray _ s = _
  rw [readArray]
  split
  next rest hclose => exact absurd hclose (hs rest)
  next => rw [readItems_eq_items hfuel, items_skipSpace]

theorem value_object {blank : List Symbol} (hblank : skipSpace blank = [])
    (hs : ∀ rest, skipSpace s ≠ .char '\x7d' :: rest) :
    value (blank ++ .char '\x7b' :: s) =
      (.object (members s).1 (members s).2.isSome, (members s).2) := by
  have hfuel : 2 * (skipSpace s).length + 2 ≤ 2 * (blank ++ .char '\x7b' :: s).length := by
    have := length_skipSpace_le s
    simp only [List.length_append, List.length_cons]
    omega
  have hskip : skipSpace (blank ++ .char '\x7b' :: s) = .char '\x7b' :: s :=
    skipSpace_append_blank hblank
  rw [value, readValue, hskip]
  change readObject _ s = _
  rw [readObject]
  split
  next rest hclose => exact absurd hclose (hs rest)
  next => rw [readMembers_eq_members hfuel, members_skipSpace]

/-- The text of a value does not begin with a closing bracket. -/
theorem Spells.skipSpace_ne {node : Node} (h : Spells s node) (rest : List Symbol) :
    skipSpace (s ++ x) ≠ .char ']' :: rest := by
  obtain ⟨after, hvalue, -⟩ := h.exists_rest
  rcases hskip : skipSpace s with _ | ⟨a, t⟩
  · rw [value, readValue, hskip] at hvalue
    cases hvalue
  · rw [skipSpace_append_of_eq hskip]
    rintro heq
    cases heq
    rw [value, readValue, hskip] at hvalue
    cases hvalue

theorem ItemsText.skipSpace_ne {nodes : List Node} {node : Node} (h : ItemsText s nodes)
    {v : List Symbol} (hv : Spells v node) (rest : List Symbol) :
    skipSpace (s ++ (v ++ x)) ≠ .char ']' :: rest := by
  cases h with
  | nil => exact hv.skipSpace_ne rest
  | cons hfirst =>
      rw [List.append_assoc]
      exact hfirst.skipSpace_ne rest

theorem MembersText.skipSpace_ne {before : List (Option String × Node)} (h : MembersText s before)
    {k : List Symbol} {key : Option String} (hk : Spells k (.string key)) (rest : List Symbol) :
    skipSpace (s ++ (k ++ x)) ≠ .char '\x7d' :: rest := by
  have hquote : ∀ {k : List Symbol} {key : Option String}, Spells k (.string key) →
      ∀ x, skipSpace (k ++ x) ≠ .char '\x7d' :: rest := by
    intro k key hk x heq
    obtain ⟨t, -, hskip, -, -⟩ := hk.readString
    rw [skipSpace_append_of_eq hskip] at heq
    cases heq
  cases h with
  | nil => exact hquote hk x
  | cons hfirst =>
      rw [List.append_assoc]
      exact hquote hfirst _

/-- A record in which one value is left open: that of a member of an object, or that of the item
of an array at an index. -/
inductive Open (key : String) (index : Nat) : (Node → Node) → Prop
  | member (before after : List (Option String × Node)) (closed : Bool) :
      Open key index fun node => .object (before ++ (some key, node) :: after) closed
  | item {before : List Node} (after : List Node) (closed : Bool) : before.length = index →
      Open key index fun node => .array (before ++ node :: after) closed

/-- Blanks may stand before a value. -/
theorem Spells.blank_append {node : Node} (h : Spells s node) {gap : List Symbol}
    (hgap : skipSpace gap = []) : Spells (gap ++ s) node := by
  have hfuel : 2 * s.length + 1 ≤ 2 * (gap ++ s).length + 1 := by
    rw [List.length_append]
    omega
  have hvalue : value (gap ++ s) = value s := by
    rw [← readValue_eq_value hfuel, value, readValue_congr (skipSpace_append_blank hgap)]
  rw [Spells, ofSymbols_eq, hvalue, ← ofSymbols_eq]
  exact h

/-- The documents that come of a text with one value left open differ in that value alone. -/
theorem Leads.document {key : String} {index : Nat} {pre post : List Symbol}
    (h : Leads key index pre) (hpost : Apart post) :
    ∃ record ended, Open key index record ∧
      ∀ v node, Spells v node → ofSymbols (pre ++ (v ++ post)) = ⟨record node, ended⟩ := by
  cases h with
  | @member blank s k gap before hblank hbefore hk hgap =>
      refine ⟨_, (otherMembers post).2.any fun rest => (skipSpace rest).isEmpty,
        .member before (otherMembers post).1 (otherMembers post).2.isSome, fun v node hv => ?_⟩
      have hshape : blank ++ .char '\x7b' :: (s ++ (k ++ .char ':' :: gap)) ++ (v ++ post) =
          blank ++ .char '\x7b' :: (s ++ (k ++ .char ':' :: (gap ++ v ++ post))) := by
        simp only [List.append_assoc, List.cons_append]
      rw [hshape, ofSymbols_eq, value_object hblank (hbefore.skipSpace_ne hk),
        hbefore.members_append, Document.members_append hk (hv.blank_append hgap) hpost]
  | @item blank s gap nodes hblank hbefore hindex hgap =>
      refine ⟨_, (otherItems post).2.any fun rest => (skipSpace rest).isEmpty,
        .item (otherItems post).1 (otherItems post).2.isSome hindex, fun v node hv => ?_⟩
      have hv := hv.blank_append hgap
      have hshape : blank ++ .char '[' :: (s ++ gap) ++ (v ++ post) =
          blank ++ .char '[' :: (s ++ (gap ++ v ++ post)) := by
        simp only [List.append_assoc, List.cons_append]
      rw [hshape, ofSymbols_eq, value_array hblank (hbefore.skipSpace_ne hv),
        hbefore.items_append, Document.items_append hv hpost]

end Document

namespace Shape

open Document (Node Open)

variable {α : Type} {key : String} {f : Field} {fields : List Field} {m n : Node}

/-! ## The record -/

/-- What is found in two objects with different values in one place: the same but for that value,
if the field of the place makes the same of both. -/
theorem readMembers_open (hfind : (fields.find? fun f => f.key == key) = some f)
    (hcheck : f.check m = f.check n) (before after : List (Option String × Node))
    (seen : List String) :
    (∃ fault, readMembers fields (before ++ (some key, m) :: after) seen = .error fault ∧
      readMembers fields (before ++ (some key, n) :: after) seen = .error fault) ∨
    ∃ l r, key ∉ seen ∧ key ∉ l.map Prod.fst ∧
      readMembers fields (before ++ (some key, m) :: after) seen = .ok (l ++ (key, m) :: r) ∧
      readMembers fields (before ++ (some key, n) :: after) seen = .ok (l ++ (key, n) :: r) := by
  induction before generalizing seen with
  | nil =>
      simp only [List.nil_append, readMembers, hfind]
      by_cases hseen : key ∈ seen
      · simp only [if_pos hseen]
        exact .inl ⟨_, rfl, rfl⟩
      simp only [if_neg hseen, hcheck]
      cases f.check n with
      | error fault => exact .inl ⟨fault, rfl, rfl⟩
      | ok =>
          cases readMembers fields after (key :: seen) with
          | error fault => exact .inl ⟨fault, rfl, rfl⟩
          | ok r => exact .inr ⟨[], r, hseen, List.not_mem_nil, rfl, rfl⟩
  | cons first before ih =>
      obtain ⟨_ | k, node⟩ := first
      · exact .inl ⟨.malformed, rfl, rfl⟩
      simp only [List.cons_append, readMembers]
      split
      next =>
        split
        next => exact ih seen
        next => exact .inl ⟨_, rfl, rfl⟩
      next g hg =>
        split
        next => exact .inl ⟨_, rfl, rfl⟩
        next hseen =>
          cases g.check node with
          | error fault => exact .inl ⟨fault, rfl, rfl⟩
          | ok =>
              rcases ih (k :: seen) with ⟨fault, hm, hn⟩ | ⟨l, r, hkey, hl, hm, hn⟩
              · rw [hm, hn]
                exact .inl ⟨fault, rfl, rfl⟩
              · rw [hm, hn]
                rw [List.mem_cons, not_or] at hkey
                refine .inr ⟨(k, node) :: l, r, hkey.2, ?_, rfl, rfl⟩
                rw [List.map_cons, List.mem_cons, not_or]
                exact ⟨hkey.1, hl⟩

/-- As `readMembers_open`, for the items of an array. -/
theorem readItems_open {earlier : List Field} (later : List Field)
    (hcheck : f.check m = f.check n) (before after : List Node)
    (hlength : before.length = earlier.length) :
    (∃ fault, readItems (earlier ++ f :: later) (before ++ m :: after) = .error fault ∧
      readItems (earlier ++ f :: later) (before ++ n :: after) = .error fault) ∨
    ∃ l r, l.map Prod.fst = earlier.map Field.key ∧
      readItems (earlier ++ f :: later) (before ++ m :: after) = .ok (l ++ (f.key, m) :: r) ∧
      readItems (earlier ++ f :: later) (before ++ n :: after) = .ok (l ++ (f.key, n) :: r) := by
  induction earlier generalizing before with
  | nil =>
      cases List.length_eq_zero_iff.mp hlength
      simp only [List.nil_append, readItems, hcheck]
      cases f.check n with
      | error fault => exact .inl ⟨fault, rfl, rfl⟩
      | ok =>
          cases readItems later after with
          | error fault => exact .inl ⟨fault, rfl, rfl⟩
          | ok r => exact .inr ⟨[], r, rfl, rfl, rfl⟩
  | cons g earlier ih =>
      cases before with
      | nil => cases hlength
      | cons node before =>
          simp only [List.cons_append, readItems]
          cases g.check node with
          | error fault => exact .inl ⟨fault, rfl, rfl⟩
          | ok =>
              rcases ih before (Nat.succ.inj hlength) with ⟨fault, hm, hn⟩ | ⟨l, r, hl, hm, hn⟩
              · rw [hm, hn]
                exact .inl ⟨fault, rfl, rfl⟩
              · rw [hm, hn]
                refine .inr ⟨(g.key, node) :: l, r, ?_, rfl, rfl⟩
                rw [List.map_cons, List.map_cons, hl]

/-- A field of a record with no other field of its key before it. -/
def Declares (s : Shape α) (index : Nat) (f : Field) : Prop :=
  ∃ earlier later, s.fields = earlier ++ f :: later ∧ earlier.length = index ∧
    f.key ∉ earlier.map Field.key

theorem Declares.find? {s : Shape α} {index : Nat} (h : s.Declares index f) :
    (s.fields.find? fun g => g.key == f.key) = some f := by
  obtain ⟨earlier, later, hfields, -, hkey⟩ := h
  rw [hfields, List.find?_append, List.find?_eq_none.mpr, List.find?_cons_of_pos (by simp)]
  · rfl
  · intro g hg hsame
    exact hkey (List.mem_map.mpr ⟨g, hg, beq_iff_eq.mp hsame⟩)

/-- A record is built from two values in one of its fields, the others alike: what comes of the one
is what comes of the other, changed by `g`. -/
def Turns (s : Shape α) (key : String) (m n : Node) (g : α → α) : Prop :=
  ∀ get get' : String → Option Node, get key = some m → get' key = some n →
    (∀ k, k ≠ key → get k = get' k) → s.build get = (s.build get').map g

theorem Turns.build {s : Shape α} {g : α → α} (h : s.Turns key m n g)
    {l : List (String × Node)} (hl : key ∉ l.map Prod.fst) (r : List (String × Node)) :
    (s.build fun k => (l ++ (key, m) :: r).lookup k) =
      (s.build fun k => (l ++ (key, n) :: r).lookup k).map g := by
  have hfound : ∀ node : Node, (l ++ (key, node) :: r).lookup key = some node := by
    intro node
    rw [List.lookup_append, List.lookup_eq_none_iff.mpr, Option.none_or, List.lookup_cons_self]
    rintro p hp
    rw [bne_iff_ne]
    rintro rfl
    exact hl (List.mem_map_of_mem hp)
  apply h _ _ (hfound m) (hfound n)
  intro k hk
  rw [List.lookup_append, List.lookup_append, List.lookup_cons, List.lookup_cons,
    beq_false_of_ne hk]

/-- Two values of a field that passes or refuses both of them alike: the record read with the one is
that read with the other, changed by `g`. -/
theorem decoder_open {s : Shape α} {index : Nat} {g : α → α} (hs : s.Declares index f)
    (hcheck : f.check m = f.check n) (hbuild : s.Turns f.key m n g) {record : Node → Node}
    (h : Open f.key index record) :
    s.decoder (record m) = (s.decoder (record n)).map g := by
  cases h with
  | member before after closed =>
      rw [decoder, decoder]
      rcases readMembers_open hs.find? hcheck before after [] with
        ⟨fault, hm, hn⟩ | ⟨l, r, -, hl, hm, hn⟩
      · rw [hm, hn]
        rfl
      · rw [hm, hn]
        cases closed with
        | true => exact hbuild.build hl r
        | false => rfl
  | @item before after closed hindex =>
      obtain ⟨earlier, later, hfields, hlength, hkey⟩ := hs
      -- An array that does not close goes on with a broken item.
      obtain ⟨rest, hrest⟩ : ∃ rest, ∀ node, (if closed = true then before ++ node :: after
          else before ++ node :: after ++ [.broken]) = before ++ node :: rest := by
        cases closed with
        | true => exact ⟨after, fun _ => rfl⟩
        | false => exact ⟨after ++ [.broken], fun node => List.append_assoc ..⟩
      rw [decoder, decoder, hrest, hrest, hfields]
      rcases readItems_open later hcheck before rest (hindex.trans hlength.symm) with
        ⟨fault, hm, hn⟩ | ⟨l, r, hl, hm, hn⟩
      · rw [hm, hn]
        rfl
      · rw [hm, hn]
        exact hbuild.build (by rwa [hl]) r

end Shape

end KeyedLedger
