import KeyedLedger.Proofs.Json.Locality

/-! # Numerals

A numeral is a number as JSON writes it: a sign, digits without a zero in front, a fraction and an
exponent, all but the digits optional and none of them bounded in length. Its text is read as the
number that it spells (`Numeral.spells`), and its text in quotes as the string
(`Numeral.spells_quoted`).
-/

namespace KeyedLedger

open Text Document

/-- One or more decimal digits. -/
structure Digits where
  chars : List Char
  ne_nil : chars ≠ []
  isDigit : ∀ c ∈ chars, c.isDigit = true

/-- The exponent of a numeral, with its mark and its sign. -/
structure Exponent where
  mark : Char
  sign : List Char
  digits : Digits
  mark_eq : mark = 'e' ∨ mark = 'E'
  sign_eq : sign = [] ∨ sign = ['+'] ∨ sign = ['-']

/-- A number as JSON writes it. -/
structure Numeral where
  negative : Bool
  whole : Digits
  fraction : Option Digits
  exponent : Option Exponent
  whole_head : whole.chars = ['0'] ∨ whole.chars.head? ≠ some '0'

/-- The characters of the exponent. -/
def Exponent.chars (e : Exponent) : List Char :=
  e.mark :: e.sign ++ e.digits.chars

namespace Numeral

/-- The sign in front. -/
def signChars (n : Numeral) : List Char :=
  if n.negative then ['-'] else []

/-- The point and the digits behind it. -/
def fractionChars (n : Numeral) : List Char :=
  n.fraction.elim [] fun digits => '.' :: digits.chars

/-- The exponent, if there is one. -/
def exponentChars (n : Numeral) : List Char :=
  n.exponent.elim [] Exponent.chars

/-- The characters of the numeral. -/
def chars (n : Numeral) : List Char :=
  n.signChars ++ (n.whole.chars ++ (n.fractionChars ++ n.exponentChars))

/-- The text of the numeral. -/
def text (n : Numeral) : String :=
  String.ofList n.chars

/-- The numeral as a JSON number. -/
def plain (n : Numeral) : List Symbol :=
  spelled n.chars

/-- The numeral as a JSON string. -/
def quoted (n : Numeral) : List Symbol :=
  .char '"' :: (spelled n.chars ++ [.char '"'])

end Numeral

/-! ## The parts of a numeral -/

/-- A text that does not begin with a digit. -/
def Undigited (s : List Symbol) : Prop :=
  ∀ c t, s = .char c :: t → c.isDigit = false

theorem Digits.exists_cons (d : Digits) :
    ∃ c cs, d.chars = c :: cs ∧ c.isDigit = true := by
  obtain ⟨c, cs, hcs⟩ := List.exists_cons_of_ne_nil d.ne_nil
  exact ⟨c, cs, hcs, d.isDigit c (hcs ▸ List.mem_cons_self)⟩

theorem spanDigits_digits {ds : List Char} (hds : ∀ d ∈ ds, d.isDigit = true) {rest : List Symbol}
    (hrest : Undigited rest) : spanDigits (spelled ds ++ rest) = (ds, rest) := by
  induction ds with
  | nil =>
      rcases rest with _ | ⟨c | _, rest⟩
      · rfl
      · have hc := hrest c rest rfl
        simp [spelled, spanDigits, hc]
      · rfl
  | cons d ds ih =>
      have hspan := ih fun e he => hds e (List.mem_cons_of_mem _ he)
      rw [spelled_cons, List.cons_append, spanDigits, if_pos (hds d List.mem_cons_self), hspan]

namespace Numeral

variable (n : Numeral)

theorem readWhole_whole {rest : List Symbol} (hrest : Undigited rest) :
    readWhole (spelled n.whole.chars ++ rest) = some (n.whole.chars, rest) := by
  have hne := n.whole.ne_nil
  have hhead := n.whole_head
  rw [readWhole, spanDigits_digits n.whole.isDigit hrest]
  generalize n.whole.chars = ds at hne hhead
  split
  next heq => exact absurd (congrArg Prod.fst heq) hne
  next heq =>
    cases heq
    exact hhead.elim (fun h => by cases h) fun h => absurd rfl h
  next heq =>
    cases heq
    rfl

theorem readFraction_fraction {rest : List Symbol} (hrest : Undigited rest)
    (hpoint : ∀ t, rest ≠ .char '.' :: t) :
    readFraction (spelled n.fractionChars ++ rest) = some (n.fractionChars, rest) := by
  rw [fractionChars]
  cases n.fraction with
  | none =>
      rw [Option.elim_none, spelled, List.map_nil, List.nil_append, readFraction]
      exact fun t heq => hpoint t heq
  | some digits =>
      rw [Option.elim_some, spelled_cons, List.cons_append, readFraction,
        spanDigits_digits digits.isDigit hrest]
      split
      next heq => exact absurd (congrArg Prod.fst heq) digits.ne_nil
      next heq =>
        cases heq
        rfl

theorem readExponentSign_sign (e : Exponent) :
    readExponentSign (spelled (e.sign ++ e.digits.chars)) = (e.sign, spelled e.digits.chars) := by
  rcases e.sign_eq with h | h | h
  · obtain ⟨c, cs, hcs, hc⟩ := e.digits.exists_cons
    rw [h, List.nil_append, hcs, spelled_cons]
    exact readExponentSign_of_ne (ne_of_isDigit hc (by decide)) (ne_of_isDigit hc (by decide)) _
  · rw [h]
    rfl
  · rw [h]
    rfl

theorem readExponent_exponent :
    readExponent (spelled n.exponentChars) = some (n.exponentChars, []) := by
  rw [exponentChars]
  cases n.exponent with
  | none => rfl
  | some e =>
      have hend : Undigited [] := fun c t heq => by cases heq
      have hdigits := spanDigits_digits e.digits.isDigit hend
      rw [List.append_nil] at hdigits
      rw [Option.elim_some, Exponent.chars, List.cons_append, spelled_cons, readExponent,
        if_pos e.mark_eq, readExponentSign_sign]
      simp only [hdigits]
      split
      next heq => exact absurd (congrArg Prod.fst heq) e.digits.ne_nil
      next heq =>
        cases heq
        rfl

/-- A text begins with the mark of an exponent, if with anything. -/
theorem head_exponentChars {c : Char} {t : List Symbol}
    (h : spelled n.exponentChars = .char c :: t) : c = 'e' ∨ c = 'E' := by
  rw [exponentChars] at h
  cases he : n.exponent with
  | none =>
      rw [he] at h
      cases h
  | some e =>
      rw [he, Option.elim_some, Exponent.chars, List.cons_append, spelled_cons] at h
      cases h
      exact e.mark_eq

theorem undigited_exponent : Undigited (spelled n.exponentChars) := by
  intro c t h
  rcases n.head_exponentChars h with rfl | rfl <;> rfl

theorem undigited_fraction :
    Undigited (spelled n.fractionChars ++ spelled n.exponentChars) := by
  intro c t h
  rw [fractionChars] at h
  cases hfraction : n.fraction with
  | none =>
      rw [hfraction] at h
      exact n.undigited_exponent c t h
  | some digits =>
      rw [hfraction, Option.elim_some, spelled_cons] at h
      cases h
      rfl

theorem readSign_plain :
    readSign n.plain =
      (n.signChars, spelled (n.whole.chars ++ (n.fractionChars ++ n.exponentChars))) := by
  rw [plain, chars, signChars]
  cases n.negative with
  | true => rfl
  | false =>
      obtain ⟨c, cs, hcs, hc⟩ := n.whole.exists_cons
      rw [if_neg Bool.false_ne_true, List.nil_append, hcs, List.cons_append, spelled_cons]
      exact readSign_of_ne (ne_of_isDigit hc (by decide)) _

theorem readNumber_plain : readNumber n.plain = some (n.text, []) := by
  have hpoint : ∀ t, spelled n.exponentChars ≠ .char '.' :: t := by
    intro t h
    rcases n.head_exponentChars h with hc | hc <;> cases hc
  rw [readNumber_eq, readSign_plain, readUnsigned]
  simp only [spelled_append, n.readWhole_whole n.undigited_fraction,
    n.readFraction_fraction n.undigited_exponent hpoint, n.readExponent_exponent,
    Option.bind_eq_bind, Option.bind_some, Option.map_some]
  rw [text, chars, List.append_assoc]

/-- A numeral begins with a sign or a digit. -/
theorem head_chars : ∃ c cs, n.chars = c :: cs ∧ (c = '-' ∨ c.isDigit = true) := by
  rw [chars, signChars]
  cases n.negative with
  | true => exact ⟨_, _, rfl, .inl rfl⟩
  | false =>
      obtain ⟨c, cs, hcs, hc⟩ := n.whole.exists_cons
      rw [hcs]
      exact ⟨_, _, rfl, .inr hc⟩

/-! ## What a numeral spells -/

/-- The numeral is read as a number, digit by digit as it is written. -/
theorem spells : Spells n.plain (.number n.text) := by
  obtain ⟨c, cs, hcs, hc⟩ := n.head_chars
  have hread := n.readNumber_plain
  rw [Spells, ofSymbols_eq, value]
  rw [plain, hcs, spelled_cons] at hread ⊢
  rw [readValue_number hc _ _ hread]
  rfl

/-- A numeral is written with digits, signs, a point and the mark of an exponent. -/
theorem mem_chars {c : Char} (h : c ∈ n.chars) :
    c.isDigit = true ∨ c ∈ ['-', '+', '.', 'e', 'E'] := by
  rw [chars, List.mem_append, List.mem_append, List.mem_append] at h
  rcases h with h | h | h | h
  · rw [signChars] at h
    split at h
    · cases List.mem_singleton.mp h
      exact .inr (by decide)
    · cases h
  · exact .inl (n.whole.isDigit c h)
  · rw [fractionChars] at h
    cases hfraction : n.fraction with
    | none =>
        rw [hfraction] at h
        cases h
    | some digits =>
        rw [hfraction, Option.elim_some, List.mem_cons] at h
        rcases h with rfl | h
        · exact .inr (by decide)
        · exact .inl (digits.isDigit c h)
  · rw [exponentChars] at h
    cases hexponent : n.exponent with
    | none =>
        rw [hexponent] at h
        cases h
    | some e =>
        rw [hexponent, Option.elim_some, Exponent.chars, List.cons_append, List.mem_cons,
          List.mem_append] at h
        rcases h with rfl | h | h
        · exact .inr (by rcases e.mark_eq with h | h <;> rw [h] <;> decide)
        · rcases e.sign_eq with hsign | hsign | hsign <;> rw [hsign] at h
          · cases h
          · cases List.mem_singleton.mp h
            exact .inr (by decide)
          · cases List.mem_singleton.mp h
            exact .inr (by decide)
        · exact .inl (e.digits.isDigit c h)

/-- The characters of a numeral stand for themselves in a string. -/
theorem escape_of_mem {c : Char} (h : c ∈ n.chars) : Json.escape c = [c] := by
  rcases n.mem_chars h with hc | hc
  · have hne : ∀ d : Char, d.isDigit = false → c ≠ d := fun d hd => ne_of_isDigit hc hd
    have hvisible := (isVisible_iff c).mp (isVisible_of_isDigit hc)
    have hcontrol : ¬c.toNat < 32 := Nat.not_lt.mpr (Nat.le_trans (by decide) hvisible.1)
    rw [Json.escape, if_neg (hne _ rfl), if_neg (hne _ rfl), if_neg (hne _ rfl),
      if_neg (hne _ rfl), if_neg (hne _ rfl), if_neg (hne _ rfl), if_neg (hne _ rfl),
      dif_neg hcontrol]
  · simp only [List.mem_cons, List.not_mem_nil, or_false] at hc
    rcases hc with rfl | rfl | rfl | rfl | rfl <;> rfl

/-- The numeral in quotes is read as the string of its characters. -/
theorem spells_quoted : Spells n.quoted (.string (some n.text)) := by
  have hescape : n.chars.flatMap Json.escape = n.chars := by
    rw [List.flatMap_congr fun c hc => n.escape_of_mem hc]
    exact List.flatMap_singleton' n.chars
  have hquote : spelled (Json.quote n.text) = n.quoted := by
    rw [Json.quote, text, String.toList_ofList, hescape, List.cons_append, spelled_cons,
      spelled_append]
    rfl
  obtain ⟨after, hafter, hread⟩ := readString_quote n.text []
  rw [List.append_nil, hquote] at hafter
  rw [Spells, ofSymbols_eq, value, hafter, readValue]
  simp only [skipSpace]
  rw [if_neg (by decide)]
  simp only [hread]
  rfl

end Numeral

end KeyedLedger
