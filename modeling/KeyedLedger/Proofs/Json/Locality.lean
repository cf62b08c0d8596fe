import KeyedLedger.Proofs.Json.Scanning

/-! # The reader looks no further than it has to

What has been read from a text is also read in front of another text, which is left alone, unless
that one goes on with a number (`Extends`). How much fuel the reader is given makes no difference as
long as there are two for each symbol (`AgreeOn`). So a part of a text is read in the same way
wherever it stands, and what is read can be told without fuel.
-/

namespace KeyedLedger.Document

open Text

variable {s r x : List Symbol}

/-! ## One symbol ahead -/

/-- What reads a text also reads it in front of another one that does not go on with a number, and
leaves the other one alone. -/
def Extends {β : Type} (f g : List Symbol → β × Option (List Symbol)) : Prop :=
  ∀ {s r : List Symbol} {b : β}, f s = (b, some r) → ∀ {x : List Symbol}, Parted r x →
    g (s ++ x) = (b, some (r ++ x)) ∧ r.length < s.length

theorem Extends.ne_nil {β : Type} {f g : List Symbol → β × Option (List Symbol)}
    (h : Extends f g) {b : β} (hread : f s = (b, some r)) : s ≠ [] := by
  rintro rfl
  cases r with
  | nil => exact absurd (h hread (x := []) (.inr trivial)).2 (Nat.lt_irrefl 0)
  | cons a r => exact absurd (h hread (parted_of_cons a r [])).2 (Nat.not_lt_zero _)

theorem Extends.items {f g : Nat} (hvalue : Extends (readValue f) (readValue g))
    (hitems : Extends (readItems f) (readItems g)) :
    Extends (readItems (f + 1)) (readItems (g + 1)) := by
  intro s r nodes h x hx
  rw [readItems] at h
  rcases hread : readValue f s with ⟨node, _ | rest⟩
  · simp only [hread] at h
    cases h
  simp only [hread] at h
  split at h
  next rest' hskip =>
    cases h
    obtain ⟨hnode, hlength⟩ := hvalue hread (x := x) (.inl (ne_nil_of_skipSpace hskip))
    have hrest := length_of_skipSpace hskip
    rw [readItems]
    simp only [hnode, skipSpace_append_of_eq hskip]
    exact ⟨trivial, by omega⟩
  next rest' hskip =>
    obtain ⟨hnode, hlength⟩ := hvalue hread (x := x) (.inl (ne_nil_of_skipSpace hskip))
    have hrest := length_of_skipSpace hskip
    rcases hothers : readItems f rest' with ⟨others, after⟩
    rw [hothers] at h
    cases h
    obtain ⟨hothers, hlength'⟩ := hitems hothers hx
    rw [readItems]
    simp only [hnode, skipSpace_append_of_eq hskip, hothers]
    exact ⟨trivial, by omega⟩
  next => cases h

theorem Extends.members {f g : Nat} (hvalue : Extends (readValue f) (readValue g))
    (hmembers : Extends (readMembers f) (readMembers g)) :
    Extends (readMembers (f + 1)) (readMembers (g + 1)) := by
  intro s r members h x hx
  rw [readMembers] at h
  split at h
  next s₁ hquote =>
    split at h
    next => cases h
    next key s₂ hkey =>
      split at h
      next s₃ hcolon =>
        obtain ⟨hkey, hlength₂⟩ := readString_append (x := x) hkey
        have hlength₁ := length_of_skipSpace hquote
        have hlength₃ := length_of_skipSpace hcolon
        rcases hread : readValue f s₃ with ⟨node, _ | s₄⟩
        · simp only [hread] at h
          cases h
        simp only [hread] at h
        rw [readMembers]
        split at h
        next s₅ hskip =>
          cases h
          obtain ⟨hnode, hlength₄⟩ := hvalue hread (x := x) (.inl (ne_nil_of_skipSpace hskip))
          have hlength₅ := length_of_skipSpace hskip
          simp only [skipSpace_append_of_eq hquote, hkey, skipSpace_append_of_eq hcolon, hnode,
            skipSpace_append_of_eq hskip]
          exact ⟨trivial, by omega⟩
        next s₅ hskip =>
          obtain ⟨hnode, hlength₄⟩ := hvalue hread (x := x) (.inl (ne_nil_of_skipSpace hskip))
          have hlength₅ := length_of_skipSpace hskip
          rcases hothers : readMembers f s₅ with ⟨others, after⟩
          rw [hothers] at h
          cases h
          obtain ⟨hothers, hlength₆⟩ := hmembers hothers hx
          simp only [skipSpace_append_of_eq hquote, hkey, skipSpace_append_of_eq hcolon, hnode,
            skipSpace_append_of_eq hskip, hothers]
          exact ⟨trivial, by omega⟩
        next => cases h
      next => cases h
  next => cases h

/-- The array after its opening bracket. -/
def readArray (fuel : Nat) (s : List Symbol) : Node × Option (List Symbol) :=
  match skipSpace s with
  | .char ']' :: rest => (.array [] true, some rest)
  | s =>
    let (items, rest) := readItems fuel s
    (.array items rest.isSome, rest)

/-- The object after its opening brace. -/
def readObject (fuel : Nat) (s : List Symbol) : Node × Option (List Symbol) :=
  match skipSpace s with
  | .char '\x7d' :: rest => (.object [] true, some rest)
  | s =>
    let (members, rest) := readMembers fuel s
    (.object members rest.isSome, rest)

/-- What is read behind blanks is also read there in front of another text. -/
theorem Extends.behind_blanks {β : Type} {f g : List Symbol → β × Option (List Symbol)}
    (h : Extends f g) {b : β} (hread : f (skipSpace s) = (b, some r)) (hx : Parted r x) :
    ∃ a t, skipSpace s = a :: t ∧ skipSpace (s ++ x) = a :: (t ++ x) ∧
      g (a :: (t ++ x)) = (b, some (r ++ x)) ∧ r.length < s.length := by
  obtain ⟨hextended, hlength⟩ := h hread hx
  have hskipped := length_skipSpace_le s
  rcases hskip : skipSpace s with _ | ⟨a, t⟩
  · exact absurd hskip (h.ne_nil hread)
  rw [hskip] at hextended
  exact ⟨a, t, rfl, skipSpace_append_of_eq hskip x, hextended, by omega⟩

theorem Extends.array {f g : Nat} (h : Extends (readItems f) (readItems g)) :
    Extends (readArray f) (readArray g) := by
  intro s r node hread x hx
  rw [readArray] at hread
  split at hread
  next rest hskip =>
    cases hread
    rw [readArray, skipSpace_append_of_eq hskip]
    exact ⟨rfl, length_of_skipSpace hskip⟩
  next hne =>
    rcases hitems : readItems f (skipSpace s) with ⟨items, rest⟩
    rw [hitems] at hread
    cases hread
    obtain ⟨a, t, hskip, hskipped, hitems, hlength⟩ := h.behind_blanks hitems hx
    refine ⟨?_, hlength⟩
    rw [readArray, hskipped]
    split
    next heq =>
      cases heq
      exact absurd hskip (hne t)
    next =>
      rw [hitems]
      rfl

theorem Extends.object {f g : Nat} (h : Extends (readMembers f) (readMembers g)) :
    Extends (readObject f) (readObject g) := by
  intro s r node hread x hx
  rw [readObject] at hread
  split at hread
  next rest hskip =>
    cases hread
    rw [readObject, skipSpace_append_of_eq hskip]
    exact ⟨rfl, length_of_skipSpace hskip⟩
  next hne =>
    rcases hmembers : readMembers f (skipSpace s) with ⟨members, rest⟩
    rw [hmembers] at hread
    cases hread
    obtain ⟨a, t, hskip, hskipped, hmembers, hlength⟩ := h.behind_blanks hmembers hx
    refine ⟨?_, hlength⟩
    rw [readObject, hskipped]
    split
    next heq =>
      cases heq
      exact absurd hskip (hne t)
    next =>
      rw [hmembers]
      rfl

theorem readValue_congr {s' : List Symbol} (h : skipSpace s = skipSpace s') (fuel : Nat) :
    readValue (fuel + 1) s = readValue (fuel + 1) s' := by
  rw [readValue, readValue, h]

theorem Extends.value {f g : Nat} (hitems : Extends (readItems f) (readItems g))
    (hmembers : Extends (readMembers f) (readMembers g)) :
    Extends (readValue (f + 1)) (readValue (g + 1)) := by
  intro s r node h x hx
  rw [readValue] at h
  split at h
  next t hskip =>
    have hlength := length_of_skipSpace hskip
    split at h
    next text rest hread =>
      cases h
      obtain ⟨hread, hlength'⟩ := readString_append (x := x) hread
      rw [readValue, skipSpace_append_of_eq hskip]
      simp only [hread]
      exact ⟨trivial, by omega⟩
    next => cases h
  next t hskip =>
    have hlength := length_of_skipSpace hskip
    obtain ⟨hread, hlength'⟩ := hitems.array (s := t) h hx
    rw [readValue, skipSpace_append_of_eq hskip]
    exact ⟨hread, by omega⟩
  next t hskip =>
    have hlength := length_of_skipSpace hskip
    obtain ⟨hread, hlength'⟩ := hmembers.object (s := t) h hx
    rw [readValue, skipSpace_append_of_eq hskip]
    exact ⟨hread, by omega⟩
  next t hskip =>
    rw [readValue, skipSpace_append_of_eq hskip]
    exact ofWord_behind hskip h
  next t hskip =>
    rw [readValue, skipSpace_append_of_eq hskip]
    exact ofWord_behind hskip h
  next t hskip =>
    rw [readValue, skipSpace_append_of_eq hskip]
    exact ofWord_behind hskip h
  next =>
    have hlength := length_skipSpace_le s
    split at h
    next text rest hread =>
      cases h
      obtain ⟨c, t, hskip, hc⟩ := head_of_readNumber hread
      obtain ⟨hread, hlength'⟩ := readNumber_append hread hx
      rw [hskip, List.cons_append] at hread
      have hblank := (skipSpace_append_of_eq hskip x).trans
        (skipSpace_digit hc (t ++ x)).symm
      rw [readValue_congr hblank, readValue_number hc g (t ++ x) hread]
      exact ⟨rfl, by omega⟩
    next => cases h

theorem extends_read (f : Nat) : ∀ g, f ≤ g → Extends (readValue f) (readValue g) ∧
    Extends (readItems f) (readItems g) ∧ Extends (readMembers f) (readMembers g) := by
  induction f with
  | zero =>
      intro g _
      refine ⟨?_, ?_, ?_⟩ <;> intro s r b h <;> cases h
  | succ f ih =>
      intro g hg
      obtain ⟨g, rfl⟩ : ∃ k, g = k + 1 := ⟨g - 1, by omega⟩
      obtain ⟨hvalue, hitems, hmembers⟩ := ih g (by omega)
      exact ⟨hitems.value hmembers, hvalue.items hitems, hvalue.members hmembers⟩

/-! ## Fuel -/

/-- Two readers agree on texts up to a length. -/
def AgreeOn {β : Type} (n : Nat) (f g : List Symbol → β) : Prop :=
  ∀ s : List Symbol, s.length ≤ n → f s = g s

theorem length_of_readValue {fuel : Nat} {node : Node} (h : readValue fuel s = (node, some r)) :
    r.length < s.length :=
  ((extends_read fuel fuel (Nat.le_refl _)).1 h (x := []) (.inr trivial)).2

theorem AgreeOn.items {n f g : Nat} (hvalue : AgreeOn (n + 1) (readValue f) (readValue g))
    (hitems : AgreeOn n (readItems f) (readItems g)) :
    AgreeOn (n + 1) (readItems (f + 1)) (readItems (g + 1)) := by
  intro s hs
  rw [readItems, readItems, hvalue s hs]
  split
  next => rfl
  next node rest hread =>
    have hlength := length_of_readValue hread
    split
    next => rfl
    next rest' hskip =>
      have hlength' := length_of_skipSpace hskip
      rw [hitems rest' (by omega)]
    next => rfl

theorem AgreeOn.members {n f g : Nat} (hvalue : AgreeOn (n + 1) (readValue f) (readValue g))
    (hmembers : AgreeOn n (readMembers f) (readMembers g)) :
    AgreeOn (n + 1) (readMembers (f + 1)) (readMembers (g + 1)) := by
  intro s hs
  rw [readMembers, readMembers]
  split
  next s₁ hquote =>
    have hlength₁ := length_of_skipSpace hquote
    split
    next => rfl
    next key s₂ hkey =>
      have hlength₂ := (readString_append (x := []) hkey).2
      split
      next s₃ hcolon =>
        have hlength₃ := length_of_skipSpace hcolon
        rw [hvalue s₃ (by omega)]
        split
        next => rfl
        next node s₄ hread =>
          have hlength₄ := length_of_readValue hread
          split
          next => rfl
          next s₅ hskip =>
            have hlength₅ := length_of_skipSpace hskip
            rw [hmembers s₅ (by omega)]
          next => rfl
      next => rfl
  next => rfl

theorem AgreeOn.value {n f g : Nat} (hitems : AgreeOn n (readItems f) (readItems g))
    (hmembers : AgreeOn n (readMembers f) (readMembers g)) :
    AgreeOn (n + 1) (readValue (f + 1)) (readValue (g + 1)) := by
  intro s hs
  rw [readValue, readValue]
  split
  next => rfl
  next t hskip =>
    have hlength := length_of_skipSpace hskip
    have hlength' := length_skipSpace_le t
    have hread := hitems (skipSpace t) (by omega)
    split
    next => rfl
    next => rw [hread]
  next t hskip =>
    have hlength := length_of_skipSpace hskip
    have hlength' := length_skipSpace_le t
    have hread := hmembers (skipSpace t) (by omega)
    split
    next => rfl
    next => rw [hread]
  next => rfl
  next => rfl
  next => rfl
  next => rfl

/-- Enough fuel is as good as more: two for each symbol of the text. -/
theorem agreeOn_read (n : Nat) : ∀ f g, 2 * n + 1 ≤ f → 2 * n + 1 ≤ g →
    AgreeOn n (readValue f) (readValue g) ∧ AgreeOn n (readItems (f + 1)) (readItems (g + 1)) ∧
      AgreeOn n (readMembers (f + 1)) (readMembers (g + 1)) := by
  induction n with
  | zero =>
      intro f g hf hg
      obtain ⟨f, rfl⟩ : ∃ k, f = k + 1 := ⟨f - 1, by omega⟩
      obtain ⟨g, rfl⟩ : ∃ k, g = k + 1 := ⟨g - 1, by omega⟩
      have hnil : ∀ s : List Symbol, s.length ≤ 0 → s = [] :=
        fun s hs => List.length_eq_zero_iff.mp (Nat.le_zero.mp hs)
      refine ⟨?_, ?_, ?_⟩ <;> intro s hs <;> cases hnil s hs <;> rfl
  | succ n ih =>
      intro f g hf hg
      obtain ⟨f, rfl⟩ : ∃ k, f = k + 1 := ⟨f - 1, by omega⟩
      obtain ⟨g, rfl⟩ : ∃ k, g = k + 1 := ⟨g - 1, by omega⟩
      obtain ⟨f', rfl⟩ : ∃ k, f = k + 1 := ⟨f - 1, by omega⟩
      obtain ⟨g', rfl⟩ : ∃ k, g = k + 1 := ⟨g - 1, by omega⟩
      obtain ⟨-, hitems, hmembers⟩ := ih f' g' (by omega) (by omega)
      have hvalue := hitems.value hmembers
      obtain ⟨-, hitems', hmembers'⟩ := ih (f' + 1) (g' + 1) (by omega) (by omega)
      exact ⟨hvalue, hvalue.items hitems', hvalue.members hmembers'⟩

/-! ## Without fuel -/

/-- The value at the start of a text. -/
def value (s : List Symbol) : Node × Option (List Symbol) :=
  readValue (2 * s.length + 1) s

/-- The items of an array up to its end. -/
def items (s : List Symbol) : List Node × Option (List Symbol) :=
  readItems (2 * s.length + 2) s

/-- The members of an object up to its end. -/
def members (s : List Symbol) : List (Option String × Node) × Option (List Symbol) :=
  readMembers (2 * s.length + 2) s

theorem readValue_eq_value {fuel : Nat} (h : 2 * s.length + 1 ≤ fuel) :
    readValue fuel s = value s :=
  (agreeOn_read s.length fuel _ h (Nat.le_refl _)).1 s (Nat.le_refl _)

theorem readItems_eq_items {fuel : Nat} (h : 2 * s.length + 2 ≤ fuel) :
    readItems fuel s = items s := by
  obtain ⟨fuel, rfl⟩ : ∃ k, fuel = k + 1 := ⟨fuel - 1, by omega⟩
  exact (agreeOn_read s.length fuel (2 * s.length + 1) (by omega) (Nat.le_refl _)).2.1 s
    (Nat.le_refl _)

theorem readMembers_eq_members {fuel : Nat} (h : 2 * s.length + 2 ≤ fuel) :
    readMembers fuel s = members s := by
  obtain ⟨fuel, rfl⟩ : ∃ k, fuel = k + 1 := ⟨fuel - 1, by omega⟩
  exact (agreeOn_read s.length fuel (2 * s.length + 1) (by omega) (Nat.le_refl _)).2.2 s
    (Nat.le_refl _)

theorem ofSymbols_eq (s : List Symbol) : ofSymbols s =
    ⟨(value s).1, (value s).2.any fun rest => (skipSpace rest).isEmpty⟩ := by
  rw [ofSymbols, readValue_eq_value (by omega)]
  rcases value s with ⟨root, _ | rest⟩ <;> rfl

/-- A text is that of a value, with nothing but blanks around it. -/
def Spells (s : List Symbol) (node : Node) : Prop :=
  ofSymbols s = ⟨node, true⟩

theorem Spells.exists_rest {node : Node} (h : Spells s node) :
    ∃ rest, value s = (node, some rest) ∧ skipSpace rest = [] := by
  rw [Spells, ofSymbols_eq] at h
  rcases hvalue : value s with ⟨root, _ | rest⟩
  · rw [hvalue] at h
    cases congrArg Document.ended h
  · rw [hvalue] at h
    cases congrArg Document.root h
    exact ⟨rest, rfl, List.isEmpty_iff.mp (congrArg Document.ended h)⟩

theorem Spells.ne_nil {node : Node} (h : Spells s node) : s ≠ [] := by
  obtain ⟨rest, hvalue, -⟩ := h.exists_rest
  rintro rfl
  cases hvalue

/-- A value is read from its text, whatever comes behind it, unless that goes on with a number. -/
theorem Spells.value_append {node : Node} (h : Spells s node) (hx : Apart x) :
    ∃ rest, value (s ++ x) = (node, some rest) ∧ skipSpace rest = skipSpace x := by
  obtain ⟨rest, hvalue, hblank⟩ := h.exists_rest
  refine ⟨rest ++ x, ?_, skipSpace_append_blank hblank⟩
  have hfuel : 2 * s.length + 1 ≤ 2 * (s ++ x).length + 1 := by
    rw [List.length_append]
    omega
  exact ((extends_read _ _ hfuel).1 hvalue (.inr hx)).1

/-- A string is read from its text up to the blanks behind it. -/
theorem Spells.readString {text : Option String} (h : Spells s (.string text)) :
    ∃ t rest, skipSpace s = .char '"' :: t ∧ readString t = some (text, rest) ∧
      skipSpace rest = [] := by
  obtain ⟨rest, hvalue, hblank⟩ := h.exists_rest
  rw [value, readValue] at hvalue
  split at hvalue
  next t hskip =>
    split at hvalue
    next text' rest' hread =>
      cases hvalue
      exact ⟨t, rest, hskip, hread, hblank⟩
    next => cases hvalue
  next t hskip =>
    change readArray _ t = _ at hvalue
    rw [readArray] at hvalue
    split at hvalue <;> cases hvalue
  next t hskip =>
    change readObject _ t = _ at hvalue
    rw [readObject] at hvalue
    split at hvalue <;> cases hvalue
  next t hskip => cases fst_ofWord hvalue
  next t hskip => cases fst_ofWord hvalue
  next t hskip => cases fst_ofWord hvalue
  next =>
    split at hvalue <;> cases hvalue

end KeyedLedger.Document
