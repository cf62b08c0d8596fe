import KeyedLedger.Proofs.Json.Written

/-! # What is scanned from a text

Blanks, strings, numbers and words are scanned from the front of a text. What is scanned does not
depend on what comes behind it, but for a number, which ends where the text does not go on with one
(`Apart`); and something is always taken off the text.
-/

namespace KeyedLedger.Document

open Text

variable {s r x : List Symbol}

/-! ## Blanks -/

theorem skipSpace_append (h : skipSpace s ≠ []) : skipSpace (s ++ x) = skipSpace s ++ x := by
  induction s with
  | nil => exact absurd rfl h
  | cons first s ih =>
      cases first with
      | stray => rfl
      | char c =>
          rw [skipSpace] at h ⊢
          rw [List.cons_append, skipSpace]
          split
          next hc => exact ih (by rwa [if_pos hc] at h)
          next => rfl

theorem skipSpace_append_blank (h : skipSpace s = []) : skipSpace (s ++ x) = skipSpace x := by
  induction s with
  | nil => rfl
  | cons first s ih =>
      cases first with
      | stray => cases h
      | char c =>
          rw [skipSpace] at h
          rw [List.cons_append, skipSpace]
          split at h
          next hc => rw [if_pos hc, ih h]
          next => cases h

theorem length_skipSpace_le (s : List Symbol) : (skipSpace s).length ≤ s.length := by
  induction s with
  | nil => exact Nat.le_refl _
  | cons first s ih =>
      cases first with
      | stray => exact Nat.le_refl _
      | char c =>
          rw [skipSpace]
          split
          · exact Nat.le_succ_of_le ih
          · exact Nat.le_refl _

theorem skipSpace_append_of_eq {a : Symbol} {t : List Symbol} (h : skipSpace s = a :: t)
    (x : List Symbol) : skipSpace (s ++ x) = a :: (t ++ x) := by
  have hne : skipSpace s ≠ [] := by
    rw [h]
    exact List.cons_ne_nil a t
  rw [skipSpace_append hne, h, List.cons_append]

theorem ne_nil_of_skipSpace {a : Symbol} {t : List Symbol} (h : skipSpace s = a :: t) : s ≠ [] := by
  rintro rfl
  cases h

theorem length_of_skipSpace {a : Symbol} {t : List Symbol} (h : skipSpace s = a :: t) :
    t.length < s.length := by
  have hlength := length_skipSpace_le s
  rw [h, List.length_cons] at hlength
  omega

/-! ## Strings -/

theorem readPieces_append {pieces : List Piece} (h : readPieces s = some (pieces, r)) :
    readPieces (s ++ x) = some (pieces, r ++ x) ∧ r.length < s.length := by
  fun_induction readPieces s generalizing pieces r with
  | case1 => cases h
  | case2 rest =>
      cases h
      exact ⟨rfl, Nat.lt_succ_self _⟩
  | case3 a b c d rest ih =>
      obtain ⟨unit, hunit, h⟩ := Option.bind_eq_some_iff.mp h
      obtain ⟨⟨others, after⟩, hrest, h⟩ := Option.bind_eq_some_iff.mp h
      cases h
      obtain ⟨hread, hlength⟩ := ih hrest
      refine ⟨?_, ?_⟩
      · simp only [List.cons_append, readPieces_unit hunit, hread, Option.map_some]
      · simp only [List.length_cons]
        omega
  | case4 e rest hno ih =>
      obtain ⟨c, hc, h⟩ := Option.bind_eq_some_iff.mp h
      obtain ⟨⟨others, after⟩, hrest, h⟩ := Option.bind_eq_some_iff.mp h
      cases h
      obtain ⟨hread, hlength⟩ := ih hrest
      refine ⟨?_, ?_⟩
      · simp only [List.cons_append, readPieces_letter hc, hread, Option.map_some]
      · simp only [List.length_cons]
        omega
  | case5 => cases h
  | case6 => cases h
  | case7 c rest hquote _ _ hslash hcontrol ih =>
      obtain ⟨⟨others, after⟩, hrest, h⟩ := Option.map_eq_some_iff.mp h
      cases h
      obtain ⟨hread, hlength⟩ := ih hrest
      refine ⟨?_, ?_⟩
      · rw [List.cons_append, readPieces_plain hquote hslash hcontrol, hread]
        rfl
      · simp only [List.length_cons]
        omega
  | case8 byte rest ih =>
      obtain ⟨⟨others, after⟩, hrest, h⟩ := Option.map_eq_some_iff.mp h
      cases h
      obtain ⟨hread, hlength⟩ := ih hrest
      refine ⟨?_, ?_⟩
      · rw [List.cons_append, readPieces, hread]
        rfl
      · simp only [List.length_cons]
        omega

theorem readString_append {text : Option String} (h : readString s = some (text, r)) :
    readString (s ++ x) = some (text, r ++ x) ∧ r.length < s.length := by
  obtain ⟨⟨pieces, after⟩, hread, h⟩ := Option.map_eq_some_iff.mp h
  cases h
  obtain ⟨hpieces, hlength⟩ := readPieces_append (x := x) hread
  exact ⟨by rw [readString, hpieces]; rfl, hlength⟩

/-! ## Numbers -/

/-- A text that does not go on with a number that ends before it. -/
def Apart : List Symbol → Prop
  | .char c :: _ => c.isDigit = false ∧ c ≠ '.' ∧ c ≠ 'e' ∧ c ≠ 'E'
  | _ => True

/-- Something is left, or what comes next does not go on with a number. -/
def Parted (r x : List Symbol) : Prop :=
  r ≠ [] ∨ Apart x

theorem parted_of_cons (a : Symbol) (s x : List Symbol) : Parted (a :: s) x :=
  .inl (List.cons_ne_nil a s)

theorem spanDigits_append_parted {ds : List Char} (h : spanDigits s = (ds, r)) (hx : Parted r x) :
    spanDigits (s ++ x) = (ds, r ++ x) := by
  induction s generalizing ds with
  | nil =>
      cases h
      rcases x with _ | ⟨c | _, x⟩
      · rfl
      · have hc : c.isDigit = false := (hx.resolve_left (· rfl)).1
        simp [spanDigits, hc]
      · rfl
  | cons first s ih =>
      cases first with
      | stray =>
        cases h
        rfl
      | char c =>
        rw [spanDigits] at h
        rw [List.cons_append, spanDigits]
        split at h
        next hc =>
          cases h
          rw [if_pos hc, ih rfl]
        next hc =>
          cases h
          rw [if_neg hc]
          rfl

theorem length_spanDigits {ds : List Char} (h : spanDigits s = (ds, r)) :
    r.length + ds.length = s.length := by
  induction s generalizing ds with
  | nil =>
      cases h
      rfl
  | cons first s ih =>
      cases first with
      | stray =>
          cases h
          rfl
      | char c =>
          rw [spanDigits] at h
          split at h
          · cases h
            exact congrArg Nat.succ (ih rfl)
          · cases h
            rfl

theorem readWhole_append {ds : List Char} (h : readWhole s = some (ds, r)) (hx : Parted r x) :
    readWhole (s ++ x) = some (ds, r ++ x) ∧ r.length < s.length := by
  rw [readWhole] at h
  rcases hspan : spanDigits s with ⟨digits, rest⟩
  rw [hspan] at h
  have hlength := length_spanDigits hspan
  split at h
  next => cases h
  next => cases h
  next hne hzero heq =>
    cases h
    cases heq
    rw [readWhole, spanDigits_append_parted hspan hx]
    refine ⟨?_, ?_⟩
    · split
      all_goals simp_all
    · have hpos := List.length_pos_iff.mpr fun hnil => hne hnil
      omega

theorem readFraction_of_ne {c : Char} (hc : c ≠ '.') (s : List Symbol) :
    readFraction (.char c :: s) = some ([], .char c :: s) := by
  rw [readFraction]
  rintro s heq
  cases heq
  exact hc rfl

theorem readFraction_append {ds : List Char} (h : readFraction s = some (ds, r))
    (hx : Parted r x) : readFraction (s ++ x) = some (ds, r ++ x) ∧ r.length ≤ s.length := by
  rcases s with _ | ⟨c | _, s⟩
  · cases h
    have hapart := hx.resolve_left (· rfl)
    refine ⟨?_, Nat.le_refl _⟩
    rcases x with _ | ⟨c | _, x⟩
    · rfl
    · exact readFraction_of_ne hapart.2.1 x
    · rfl
  · by_cases hc : c = '.'
    · subst hc
      rw [readFraction] at h
      rcases hspan : spanDigits s with ⟨digits, rest⟩
      rw [hspan] at h
      have hlength := length_spanDigits hspan
      split at h
      next => cases h
      next hne heq =>
        cases h
        cases heq
        rw [List.cons_append, readFraction, spanDigits_append_parted hspan hx, List.length_cons]
        refine ⟨?_, by omega⟩
        split
        all_goals simp_all
    · rw [readFraction_of_ne hc] at h
      cases h
      exact ⟨readFraction_of_ne hc _, Nat.le_refl _⟩
  · cases h
    exact ⟨rfl, Nat.le_refl _⟩

theorem readExponentSign_of_ne {c : Char} (hplus : c ≠ '+') (hminus : c ≠ '-') (s : List Symbol) :
    readExponentSign (.char c :: s) = ([], .char c :: s) := by
  rw [readExponentSign]
  · rintro s heq
    cases heq
    exact hplus rfl
  · rintro s heq
    cases heq
    exact hminus rfl

theorem readExponentSign_append (h : s ≠ []) :
    readExponentSign (s ++ x) = ((readExponentSign s).1, (readExponentSign s).2 ++ x) := by
  rcases s with _ | ⟨c | _, s⟩
  · exact absurd rfl h
  · by_cases hplus : c = '+'
    · subst hplus
      rfl
    by_cases hminus : c = '-'
    · subst hminus
      rfl
    rw [List.cons_append, readExponentSign_of_ne hplus hminus,
      readExponentSign_of_ne hplus hminus]
    rfl
  · rfl

theorem length_readExponentSign_le (s : List Symbol) :
    (readExponentSign s).2.length ≤ s.length := by
  rw [readExponentSign.eq_def]
  split
  · exact Nat.le_succ _
  · exact Nat.le_succ _
  · exact Nat.le_refl _

theorem readExponent_append {ds : List Char} (h : readExponent s = some (ds, r))
    (hx : Parted r x) : readExponent (s ++ x) = some (ds, r ++ x) ∧ r.length ≤ s.length := by
  rcases s with _ | ⟨c | _, s⟩
  · cases h
    have hapart := hx.resolve_left (· rfl)
    refine ⟨?_, Nat.le_refl _⟩
    rcases x with _ | ⟨c | _, x⟩
    · rfl
    · have hc : ¬ (c = 'e' ∨ c = 'E') := by
        rintro (rfl | rfl)
        · exact hapart.2.2.1 rfl
        · exact hapart.2.2.2 rfl
      rw [List.nil_append, readExponent, if_neg hc]
    · rfl
  · rw [readExponent] at h
    rw [List.cons_append, readExponent]
    split at h
    next hc =>
      rw [if_pos hc]
      have hsign := length_readExponentSign_le s
      rcases hspan : spanDigits (readExponentSign s).2 with ⟨digits, rest⟩
      have hlength := length_spanDigits hspan
      simp only [hspan] at h
      have hne : s ≠ [] := by
        rintro rfl
        cases hspan
        cases h
      simp only [readExponentSign_append hne]
      split at h
      next => cases h
      next hne heq =>
        cases h
        cases heq
        rw [spanDigits_append_parted hspan hx, List.length_cons]
        refine ⟨?_, by omega⟩
        split
        all_goals simp_all
    next hc =>
      rw [if_neg hc]
      cases h
      exact ⟨rfl, Nat.le_refl _⟩
  · cases h
    exact ⟨rfl, Nat.le_refl _⟩

/-- A number without its sign, and the rest of the text. -/
def readUnsigned (s : List Symbol) : Option (List Char × List Symbol) := do
  let (whole, s) ← readWhole s
  let (fraction, s) ← readFraction s
  let (exponent, s) ← readExponent s
  some (whole ++ fraction ++ exponent, s)

theorem readUnsigned_append {cs : List Char} (h : readUnsigned s = some (cs, r))
    (hx : Parted r x) : readUnsigned (s ++ x) = some (cs, r ++ x) ∧ r.length < s.length := by
  obtain ⟨⟨whole, s₁⟩, hwhole, h⟩ := Option.bind_eq_some_iff.mp h
  obtain ⟨⟨fraction, s₂⟩, hfraction, h⟩ := Option.bind_eq_some_iff.mp h
  obtain ⟨⟨exponent, s₃⟩, hexponent, h⟩ := Option.bind_eq_some_iff.mp h
  cases h
  have hx₂ : Parted s₂ x := by
    refine hx.imp_left fun hne hnil => hne ?_
    subst hnil
    cases hexponent
    rfl
  have hx₁ : Parted s₁ x := by
    refine hx₂.imp_left fun hne hnil => hne ?_
    subst hnil
    cases hfraction
    rfl
  obtain ⟨hreadWhole, hlength⟩ := readWhole_append hwhole hx₁
  obtain ⟨hreadFraction, hlength₁⟩ := readFraction_append hfraction hx₂
  obtain ⟨hreadExponent, hlength₂⟩ := readExponent_append hexponent hx
  refine ⟨?_, by omega⟩
  simp only [readUnsigned, hreadWhole, hreadFraction, hreadExponent, Option.bind_eq_bind,
    Option.bind_some]

/-- The sign of a number, if it has one, and the rest of the text. -/
def readSign : List Symbol → List Char × List Symbol
  | .char '-' :: s => (['-'], s)
  | s => ([], s)

theorem readNumber_eq (s : List Symbol) : readNumber s =
    (readUnsigned (readSign s).2).map fun x => (String.ofList ((readSign s).1 ++ x.1), x.2) := by
  have hsign : readNumber s = match readSign s with
      | (sign, rest) => (readWhole rest).bind fun (whole, rest) =>
          (readFraction rest).bind fun (fraction, rest) =>
            (readExponent rest).bind fun (exponent, rest) =>
              some (String.ofList (sign ++ whole ++ fraction ++ exponent), rest) := by
    rw [readNumber.eq_def, readSign.eq_def]
    rfl
  rw [hsign, readUnsigned]
  simp only [Option.bind_eq_bind, Option.map_bind, Function.comp_def, Option.map_some,
    List.append_assoc]

theorem readSign_of_ne {c : Char} (hc : c ≠ '-') (s : List Symbol) :
    readSign (.char c :: s) = ([], .char c :: s) := by
  rw [readSign]
  rintro s heq
  cases heq
  exact hc rfl

theorem readSign_append (h : s ≠ []) :
    readSign (s ++ x) = ((readSign s).1, (readSign s).2 ++ x) := by
  rcases s with _ | ⟨c | _, s⟩
  · exact absurd rfl h
  · by_cases hminus : c = '-'
    · subst hminus
      rfl
    rw [List.cons_append, readSign_of_ne hminus, readSign_of_ne hminus]
    rfl
  · rfl

theorem length_readSign_le (s : List Symbol) : (readSign s).2.length ≤ s.length := by
  rw [readSign.eq_def]
  split
  · exact Nat.le_succ _
  · exact Nat.le_refl _

theorem readNumber_append {text : String} (h : readNumber s = some (text, r))
    (hx : Parted r x) : readNumber (s ++ x) = some (text, r ++ x) ∧ r.length < s.length := by
  rw [readNumber_eq] at h
  obtain ⟨⟨cs, after⟩, hunsigned, h⟩ := Option.map_eq_some_iff.mp h
  cases h
  have hne : s ≠ [] := by
    rintro rfl
    cases hunsigned
  obtain ⟨hread, hlength⟩ := readUnsigned_append hunsigned hx
  refine ⟨?_, Nat.lt_of_lt_of_le hlength (length_readSign_le s)⟩
  rw [readNumber_eq, readSign_append hne, hread]
  rfl

theorem head_of_readNumber {text : String} (h : readNumber s = some (text, r)) :
    ∃ c t, s = .char c :: t ∧ (c = '-' ∨ c.isDigit = true) := by
  rw [readNumber_eq] at h
  obtain ⟨⟨cs, after⟩, hunsigned, -⟩ := Option.map_eq_some_iff.mp h
  obtain ⟨⟨whole, s₁⟩, hwhole, -⟩ := Option.bind_eq_some_iff.mp hunsigned
  rcases s with _ | ⟨c | _, s⟩
  · cases hwhole
  · refine ⟨c, s, rfl, ?_⟩
    by_cases hminus : c = '-'
    · exact .inl hminus
    rw [readSign_of_ne hminus, readWhole, spanDigits] at hwhole
    by_cases hdigit : c.isDigit = true
    · exact .inr hdigit
    · rw [if_neg hdigit] at hwhole
      cases hwhole
  · cases hwhole

theorem skipSpace_digit {c : Char} (hc : c = '-' ∨ c.isDigit = true) (s : List Symbol) :
    skipSpace (.char c :: s) = .char c :: s := by
  apply Starts.skipSpace
  rcases hc with h | h
  · simp [Starts, h]
  · simp [Starts, h]

/-! ## Words -/

theorem afterWord_append {word : List Char} (h : afterWord word s = some r) :
    afterWord word (s ++ x) = some (r ++ x) ∧ r.length ≤ s.length := by
  induction word generalizing s with
  | nil =>
      cases h
      exact ⟨rfl, Nat.le_refl _⟩
  | cons c word ih =>
      rcases s with _ | ⟨d | _, s⟩
      · cases h
      · rw [afterWord] at h
        rw [List.cons_append, afterWord]
        split at h
        next hc =>
          rw [if_pos hc]
          obtain ⟨hread, hlength⟩ := ih h
          exact ⟨hread, Nat.le_succ_of_le hlength⟩
        next => cases h
      · cases h

theorem ofWord_append {word : List Char} {node n : Node}
    (h : ofWord node (afterWord word s) = (n, some r)) :
    ofWord node (afterWord word (s ++ x)) = (n, some (r ++ x)) ∧ r.length ≤ s.length := by
  cases hword : afterWord word s with
  | none =>
      rw [hword] at h
      cases h
  | some rest =>
      rw [hword] at h
      cases h
      obtain ⟨hread, hlength⟩ := afterWord_append (x := x) hword
      exact ⟨congrArg (ofWord node) hread, hlength⟩

/-- A word is read behind its first letter, which has been found behind blanks. -/
theorem ofWord_behind {word : List Char} {node n : Node} {a : Symbol} {t : List Symbol}
    (hskip : skipSpace s = a :: t) (h : ofWord node (afterWord word t) = (n, some r)) :
    ofWord node (afterWord word (t ++ x)) = (n, some (r ++ x)) ∧ r.length < s.length := by
  have hlength := length_of_skipSpace hskip
  obtain ⟨hread, hlength'⟩ := ofWord_append (x := x) h
  exact ⟨hread, by omega⟩

theorem fst_ofWord {node n : Node} {rest : Option (List Symbol)}
    (h : ofWord node rest = (n, some r)) : n = node := by
  cases rest <;> cases h
  rfl

end KeyedLedger.Document
