import Mathlib.Tactic.IntervalCases
import KeyedLedger.Event.Envelope
import KeyedLedger.Proofs.Json.Record
import KeyedLedger.Proofs.Text.Characters

/-! # Written JSON is read as it was written

A value whose numbers are whole is written as a text that reads as that value and nothing else
(`ofBytes_render`). The reader is followed part by part, each in front of whatever comes after it:
a string ends with its quote, while a number only ends where a mark follows that cannot continue it.
-/

namespace KeyedLedger

open Text

/-- A value whose numbers are whole. -/
inductive Json.Whole : Json → Prop where
  | null : Whole .null
  | string (s : String) : Whole (.string s)
  | number (n : Int) : Whole (.ofInt n)
  | array {items : List Json} (h : ∀ j ∈ items, Whole j) : Whole (.array items)
  | object {members : List (String × Json)} (h : ∀ m ∈ members, Whole m.2) :
      Whole (.object members)

attribute [simp] Json.Whole.null Json.Whole.string Json.Whole.number

@[simp]
theorem Json.whole_array {items : List Json} : (array items).Whole ↔ ∀ j ∈ items, j.Whole := by
  refine ⟨fun h => ?_, Whole.array⟩
  cases h
  assumption

@[simp]
theorem Json.whole_object {members : List (String × Json)} :
    (object members).Whole ↔ ∀ m ∈ members, m.2.Whole := by
  refine ⟨fun h => ?_, Whole.object⟩
  cases h
  assumption

namespace Document

/-! ## Strings -/

/-- The symbols of written characters. -/
def spelled (cs : List Char) : List Symbol :=
  cs.map .char

theorem spelled_cons (c : Char) (cs : List Char) : spelled (c :: cs) = .char c :: spelled cs :=
  rfl

theorem spelled_append (cs ds : List Char) : spelled (cs ++ ds) = spelled cs ++ spelled ds :=
  List.map_append

theorem symbols_toUTF8 (s : String) : symbols s.toUTF8 = spelled s.toList := by
  have hdecode : s.toUTF8.utf8Decode? = some s.toList.toArray := by
    rw [String.toUTF8, ← String.utf8Encode_toList, List.utf8Decode?_utf8Encode]
  rw [symbols, hdecode]
  rfl

/-- A character that is given by its number, if it is no half of a surrogate pair. -/
theorem spell?_unit {n : Nat} (hn : n < 32) (pieces : List Piece) :
    spell? (.unit n :: pieces) = (spell? pieces).map (Char.ofNat n :: ·) := by
  have hhigh : isHighSurrogate n = false := by simp [isHighSurrogate]; omega
  have hlow : isLowSurrogate n = false := by simp [isLowSurrogate]; omega
  rcases pieces with _ | ⟨_ | low | _, rest⟩ <;> simp [spell?, hhigh, hlow]

theorem spell?_char (c : Char) (pieces : List Piece) :
    spell? (.char c :: pieces) = (spell? pieces).map (c :: ·) := by
  rw [spell?]

/-- A character that stands for itself. -/
theorem readPieces_plain {c : Char} (hquote : c ≠ '"') (hslash : c ≠ '\\') (hc : ¬ c.toNat < 32)
    (rest : List Symbol) :
    readPieces (.char c :: rest) = (readPieces rest).map fun x => (.char c :: x.1, x.2) := by
  rw [readPieces.eq_def]
  split
  all_goals simp_all

/-- A character that a backslash and a letter stand for. -/
theorem readPieces_letter {e c : Char} (h : unescape? e = some c) (rest : List Symbol) :
    readPieces (.char '\\' :: .char e :: rest) =
      (readPieces rest).map fun x => (.char c :: x.1, x.2) := by
  have hu : e ≠ 'u' := by
    rintro rfl
    simp [unescape?] at h
  rw [readPieces, h]
  · cases readPieces rest <;> rfl
  · exact fun _ _ _ _ _ _ => hu

/-- A character that is given by its number. -/
theorem readPieces_unit {a b c d : Char} {n : Nat} (h : hexUnit? a b c d = some n)
    (rest : List Symbol) :
    readPieces (.char '\\' :: .char 'u' :: .char a :: .char b :: .char c :: .char d :: rest) =
      (readPieces rest).map fun x => (.unit n :: x.1, x.2) := by
  rw [readPieces, h]
  cases readPieces rest <;> rfl

theorem hexUnit?_control {n : Nat} (hn : n < 256) :
    hexUnit? '0' '0' (hexDigit ⟨n / 16, by omega⟩) (hexDigit ⟨n % 16, by omega⟩) = some n := by
  have hzero : hexValue? '0' = some 0 := rfl
  simp only [hexUnit?, hzero, hexValue?_hexDigit, Option.bind_eq_bind, Option.bind_some]
  simp
  omega

/-- A written character is read as a piece that spells it. -/
theorem readPieces_escape (c : Char) (rest : List Symbol) :
    ∃ p, readPieces (spelled (Json.escape c) ++ rest) =
        (readPieces rest).map (fun x => (p :: x.1, x.2)) ∧
      ∀ pieces, spell? (p :: pieces) = (spell? pieces).map (c :: ·) := by
  have hletter : ∀ e, unescape? e = some c → ∃ p,
      readPieces (spelled ['\\', e] ++ rest) =
        (readPieces rest).map (fun x => (p :: x.1, x.2)) ∧
      ∀ pieces, spell? (p :: pieces) = (spell? pieces).map (c :: ·) :=
    fun e he => ⟨.char c, readPieces_letter he rest, spell?_char c⟩
  rw [Json.escape]
  split_ifs with h₁ h₂ h₃ h₄ h₅ h₆ h₇ hcontrol
  · exact hletter _ (by rw [h₁]; rfl)
  · exact hletter _ (by rw [h₂]; rfl)
  · exact hletter _ (by rw [h₃]; rfl)
  · exact hletter _ (by rw [h₄]; rfl)
  · exact hletter _ (by rw [h₅]; rfl)
  · exact hletter _ (by rw [h₆]; rfl)
  · exact hletter _ (by rw [h₇]; rfl)
  · refine ⟨.unit c.toNat, readPieces_unit (hexUnit?_control (by omega)) rest, fun pieces => ?_⟩
    rw [spell?_unit hcontrol, Char.ofNat_toNat]
  · exact ⟨.char c, readPieces_plain h₁ h₂ hcontrol rest, spell?_char c⟩

/-- The pieces of a written string spell it. -/
theorem readPieces_quote (cs : List Char) (rest : List Symbol) :
    ∃ pieces, readPieces (spelled (cs.flatMap Json.escape) ++ .char '"' :: rest) =
      some (pieces, rest) ∧ spell? pieces = some cs := by
  induction cs with
  | nil => exact ⟨[], by rw [List.flatMap_nil]; simp [spelled, readPieces], by rw [spell?]⟩
  | cons c cs ih =>
      obtain ⟨pieces, hread, hspell⟩ := ih
      obtain ⟨p, hpiece, hc⟩ := readPieces_escape c
        (spelled (cs.flatMap Json.escape) ++ .char '"' :: rest)
      refine ⟨p :: pieces, ?_, ?_⟩
      · rw [List.flatMap_cons, spelled_append, List.append_assoc, hpiece, hread, Option.map_some]
      · rw [hc, hspell, Option.map_some]

/-- A string is read from its written form, up to the quote that ends it. -/
theorem readString_quote (s : String) (rest : List Symbol) :
    ∃ after, spelled (Json.quote s) ++ rest = .char '"' :: after ∧
      readString after = some (some s, rest) := by
  obtain ⟨pieces, hread, hspell⟩ := readPieces_quote s.toList rest
  refine ⟨spelled (s.toList.flatMap Json.escape) ++ .char '"' :: rest, ?_, ?_⟩
  · rw [Json.quote, List.cons_append, spelled_cons, spelled_append, List.cons_append,
      List.append_assoc]
    rfl
  · rw [readString, hread, Option.map_some]
    simp only [hspell, Option.map_some, String.ofList_toList]

/-! ## Numbers -/

/-- What may follow a written value: the end of the text, or a mark that continues no value. -/
def Ends : List Symbol → Prop
  | [] => True
  | .char c :: _ => c = ',' ∨ c = ']' ∨ c = '\x7d'
  | .stray _ :: _ => False

theorem spanDigits_append {ds : List Char} (hds : ∀ d ∈ ds, d.isDigit = true) {rest : List Symbol}
    (hrest : Ends rest) : spanDigits (spelled ds ++ rest) = (ds, rest) := by
  induction ds with
  | nil =>
      rcases rest with _ | ⟨c | _, rest⟩
      · rfl
      · have hc : c.isDigit = false := by
          rcases hrest with rfl | rfl | rfl <;> rfl
        simp [spelled, spanDigits, hc]
      · rfl
  | cons d ds ih =>
      have hspan := ih fun e he => hds e (List.mem_cons_of_mem _ he)
      rw [spelled_cons, List.cons_append, spanDigits, if_pos (hds d List.mem_cons_self), hspan]

/-- A number that is not zero is written without a zero in front. -/
theorem head?_toDigits {n : Nat} (hn : 0 < n) : (Nat.toDigits 10 n).head? ≠ some '0' := by
  induction n using Nat.strongRecOn with
  | _ n ih =>
    by_cases hsmall : n < 10
    · rw [Nat.toDigits_of_lt_base hsmall]
      interval_cases n <;> decide
    · rw [Nat.toDigits_of_base_le (by decide) (by omega),
        List.head?_append_of_ne_nil _ Nat.toDigits_ne_nil]
      exact ih (n / 10) (by omega) (by omega)

theorem readWhole_toDigits (n : Nat) {rest : List Symbol} (hrest : Ends rest) :
    readWhole (spelled (Nat.toDigits 10 n) ++ rest) = some (Nat.toDigits 10 n, rest) := by
  have hspan := spanDigits_append
    (fun d hd => Nat.isDigit_of_mem_toDigits (b := 10) (n := n) (by decide) (by decide) hd) hrest
  rw [readWhole, hspan]
  have hne := Nat.toDigits_ne_nil (b := 10) (n := n)
  rcases Nat.eq_zero_or_pos n with rfl | hpos
  · rw [Nat.toDigits_zero]
    rfl
  have hhead := head?_toDigits hpos
  generalize Nat.toDigits 10 n = ds at *
  split
  · simp_all
  · simp_all
  · simp_all

theorem readFraction_of_ends {rest : List Symbol} (h : Ends rest) :
    readFraction rest = some ([], rest) := by
  rcases rest with _ | ⟨c | _, rest⟩
  · rfl
  · rcases h with rfl | rfl | rfl <;> rfl
  · rfl

theorem readExponent_of_ends {rest : List Symbol} (h : Ends rest) :
    readExponent rest = some ([], rest) := by
  rcases rest with _ | ⟨c | _, rest⟩
  · rfl
  · rcases h with rfl | rfl | rfl <;> rfl
  · rfl

/-- A number without a sign is its whole part, its fraction and its exponent. -/
theorem readNumber_of_digit {c : Char} (hc : c.isDigit = true) (s : List Symbol) :
    readNumber (.char c :: s) =
      (readWhole (.char c :: s)).bind fun (whole, s) =>
        (readFraction s).bind fun (fraction, s) =>
          (readExponent s).bind fun (exponent, s) =>
            some (String.ofList (whole ++ fraction ++ exponent), s) := by
  have hminus : c ≠ '-' := ne_of_isDigit hc (by decide)
  rw [readNumber]
  · rfl
  · rintro s heq
    exact hminus (Symbol.char.inj (List.cons.inj heq).1)

/-- A whole number is read to its last digit. -/
theorem readNumber_ofInt (n : Int) {rest : List Symbol} (hrest : Ends rest) :
    readNumber (spelled (toString n).toList ++ rest) = some (toString n, rest) := by
  cases n with
  | ofNat m =>
      obtain ⟨c, cs, hcs, hc⟩ := exists_cons_toDigits m
      have hwhole := readWhole_toDigits m hrest
      rw [← toList_toString_ofNat] at hcs hwhole
      have hcons : spelled (toString (Int.ofNat m)).toList ++ rest =
          .char c :: (spelled cs ++ rest) := by
        rw [hcs]
        rfl
      rw [hcons] at hwhole ⊢
      simp only [readNumber_of_digit hc, hwhole, Option.bind_some, readFraction_of_ends hrest,
        readExponent_of_ends hrest, List.append_nil, String.ofList_toList]
  | negSucc m =>
      rw [toList_toString_negSucc, spelled_cons, List.cons_append, readNumber]
      simp only [readWhole_toDigits _ hrest, Option.bind_eq_bind, Option.bind_some,
        readFraction_of_ends hrest, readExponent_of_ends hrest, List.append_nil]
      rw [List.singleton_append, ← toList_toString_negSucc, String.ofList_toList]

/-! ## Values -/

/-- A character with which a value starts. -/
def Starts (c : Char) : Prop :=
  c = '"' ∨ c = '[' ∨ c = '\x7b' ∨ c = 'n' ∨ c = '-' ∨ c.isDigit = true

theorem Starts.skipSpace {c : Char} (h : Starts c) (s : List Symbol) :
    skipSpace (.char c :: s) = .char c :: s := by
  have hblank : ¬ (c = ' ' ∨ c = '\n' ∨ c = '\t' ∨ c = '\r') := by
    rintro (rfl | rfl | rfl | rfl) <;> simp [Starts, Char.isDigit] at h
  rw [Document.skipSpace, if_neg hblank]

theorem starts_ofInt (n : Int) :
    ∃ c cs, (toString n).toList = c :: cs ∧ (c = '-' ∨ c.isDigit = true) := by
  cases n with
  | ofNat m =>
      obtain ⟨c, cs, hcs, hc⟩ := exists_cons_toDigits m
      exact ⟨c, cs, (toList_toString_ofNat m).trans hcs, .inr hc⟩
  | negSucc m => exact ⟨_, _, toList_toString_negSucc m, .inl rfl⟩

theorem starts_toChars {j : Json} (h : j.Whole) : ∃ c cs, j.toChars = c :: cs ∧ Starts c := by
  cases h with
  | null => exact ⟨'n', ['u', 'l', 'l'], by rw [Json.toChars]; rfl, by simp [Starts]⟩
  | string s => exact ⟨_, _, by rw [Json.toChars, Json.quote]; rfl, .inl rfl⟩
  | number n =>
      obtain ⟨c, cs, hcs, hc⟩ := starts_ofInt n
      exact ⟨c, cs, by rw [Json.ofInt, Json.toChars, hcs], by tauto⟩
  | array _ => exact ⟨_, _, by rw [Json.toChars, List.cons_append], by simp [Starts]⟩
  | object _ => exact ⟨_, _, by rw [Json.toChars, List.cons_append], by simp [Starts]⟩

theorem readValue_number {c : Char} (hc : c = '-' ∨ c.isDigit = true) (fuel : Nat)
    (s : List Symbol) {text : String} {rest : List Symbol}
    (hread : readNumber (.char c :: s) = some (text, rest)) :
    readValue (fuel + 1) (.char c :: s) = (.number text, some rest) := by
  have hstarts : Starts c := by
    rcases hc with h | h
    · simp [Starts, h]
    · simp [Starts, h]
  rw [readValue, hstarts.skipSpace]
  split
  all_goals simp_all

/-- The text after a mark that follows a value. -/
theorem skipSpace_mark {c : Char} (hc : c = ',' ∨ c = ']' ∨ c = '\x7d' ∨ c = ':')
    (s : List Symbol) :
    skipSpace (.char c :: s) = .char c :: s := by
  rcases hc with rfl | rfl | rfl | rfl <;> rfl

/-- A part of a value is read in front of any text that may follow it, with fuel for each of its
characters. -/
def Readable (j : Json) : Prop :=
  ∀ fuel rest, j.toChars.length ≤ fuel → Ends rest →
    readValue fuel (spelled j.toChars ++ rest) = (ofJson j, some rest)

theorem itemChars_cons_cons (j k : Json) (items : List Json) :
    Json.itemChars (j :: k :: items) = j.toChars ++ ',' :: Json.itemChars (k :: items) := by
  rw [Json.itemChars]
  simp

/-- The items of an array are read up to the bracket that closes it. -/
theorem readItems_itemChars {j : Json} {items : List Json} (hitems : ∀ k ∈ j :: items, Readable k)
    {fuel : Nat} (hfuel : (Json.itemChars (j :: items)).length < fuel) (rest : List Symbol) :
    readItems fuel (spelled (Json.itemChars (j :: items)) ++ .char ']' :: rest) =
      (ofItems (j :: items), some rest) := by
  induction items generalizing j fuel with
  | nil =>
      rcases fuel with _ | fuel
      · omega
      rw [Json.itemChars] at hfuel ⊢
      rw [readItems, hitems j List.mem_cons_self _ _ (by omega) (by simp [Ends])]
      rfl
  | cons k items ih =>
      rcases fuel with _ | fuel
      · omega
      rw [itemChars_cons_cons] at hfuel ⊢
      rw [List.length_append, List.length_cons] at hfuel
      rw [spelled_append, spelled_cons, List.append_assoc, List.cons_append, readItems,
        hitems j List.mem_cons_self _ _ (by omega) (by simp [Ends])]
      simp only [skipSpace_mark (.inl rfl),
        ih (fun i hi => hitems i (List.mem_cons_of_mem _ hi)) (show _ < fuel by omega)]
      rw [ofItems.eq_2 j]

/-- A written member. -/
def pairChars (m : String × Json) : List Char :=
  Json.quote m.1 ++ ':' :: m.2.toChars

theorem memberChars_singleton (m : String × Json) : Json.memberChars [m] = pairChars m := by
  rw [Json.memberChars, pairChars]

theorem memberChars_cons_cons (m n : String × Json) (members : List (String × Json)) :
    Json.memberChars (m :: n :: members) =
      pairChars m ++ ',' :: Json.memberChars (n :: members) := by
  rw [Json.memberChars, pairChars]
  simp

/-- A member is read as its key, a colon and its value. -/
theorem readString_pairChars {m : String × Json} (hm : Readable m.2) (fuel : Nat)
    (hfuel : (pairChars m).length ≤ fuel) {rest : List Symbol} (hrest : Ends rest) :
    ∃ after tail, spelled (pairChars m) ++ rest = .char '"' :: after ∧
      readString after = some (some m.1, .char ':' :: tail) ∧
      readValue fuel tail = (ofJson m.2, some rest) := by
  obtain ⟨after, hafter, hread⟩ := readString_quote m.1 (.char ':' :: (spelled m.2.toChars ++ rest))
  refine ⟨after, _, ?_, hread, hm fuel rest ?_ hrest⟩
  · rw [← hafter, pairChars, spelled_append, spelled_cons, List.append_assoc, List.cons_append]
  · rw [pairChars, List.length_append, List.length_cons] at hfuel
    omega

/-- The members of an object are read up to the brace that closes it. -/
theorem readMembers_memberChars {m : String × Json} {members : List (String × Json)}
    (hmembers : ∀ n ∈ m :: members, Readable n.2) {fuel : Nat}
    (hfuel : (Json.memberChars (m :: members)).length < fuel) (rest : List Symbol) :
    readMembers fuel (spelled (Json.memberChars (m :: members)) ++ .char '\x7d' :: rest) =
      (ofMembers (m :: members), some rest) := by
  have hfirst := readString_pairChars (hmembers m List.mem_cons_self)
  induction members generalizing m fuel with
  | nil =>
      rcases fuel with _ | fuel
      · omega
      rw [memberChars_singleton] at hfuel ⊢
      obtain ⟨after, tail, hafter, hkey, hvalue⟩ := hfirst fuel (by omega)
        (show Ends (.char '\x7d' :: rest) by simp [Ends])
      rw [hafter, readMembers, Starts.skipSpace (.inl rfl)]
      simp only [hkey, skipSpace_mark (.inr (.inr (.inr rfl))), hvalue]
      rfl
  | cons n members ih =>
      rcases fuel with _ | fuel
      · omega
      rw [memberChars_cons_cons] at hfuel ⊢
      rw [List.length_append, List.length_cons] at hfuel
      rw [spelled_append, spelled_cons, List.append_assoc, List.cons_append]
      obtain ⟨after, tail, hafter, hkey, hvalue⟩ := hfirst fuel (by omega)
        (show Ends (.char ',' :: (spelled (Json.memberChars (n :: members)) ++
          .char '\x7d' :: rest)) by simp [Ends])
      rw [hafter, readMembers, Starts.skipSpace (.inl rfl)]
      have hothers := fun i hi => hmembers i (List.mem_cons_of_mem m hi)
      have hnext := ih hothers (show _ < fuel by omega)
        (readString_pairChars (hothers n List.mem_cons_self))
      simp only [hkey, skipSpace_mark (.inr (.inr (.inr rfl))), hvalue, skipSpace_mark (.inl rfl),
        hnext]
      rw [ofMembers.eq_2 m.1]

theorem starts_itemChars {j : Json} (h : j.Whole) (items : List Json) :
    ∃ c cs, Json.itemChars (j :: items) = c :: cs ∧ Starts c := by
  obtain ⟨c, cs, hcs, hc⟩ := starts_toChars h
  cases items with
  | nil => exact ⟨c, cs, by rw [Json.itemChars, hcs], hc⟩
  | cons k items => exact ⟨c, _, by rw [itemChars_cons_cons, hcs, List.cons_append], hc⟩

theorem starts_memberChars (m : String × Json) (members : List (String × Json)) :
    ∃ cs, Json.memberChars (m :: members) = '"' :: cs := by
  cases members with
  | nil => exact ⟨_, by rw [memberChars_singleton, pairChars, Json.quote]; rfl⟩
  | cons n members => exact ⟨_, by rw [memberChars_cons_cons, pairChars, Json.quote]; rfl⟩

/-- An array is read up to its bracket, if each of its items is read. -/
theorem Readable.array {items : List Json} (hwhole : ∀ j ∈ items, j.Whole)
    (hitems : ∀ j ∈ items, Readable j) : Readable (.array items) := by
  intro fuel rest hfuel _
  rw [Json.toChars, List.length_append, List.length_cons, List.length_singleton] at hfuel
  rcases fuel with _ | fuel
  · omega
  rw [Json.toChars, List.cons_append, spelled_cons, spelled_append, List.cons_append,
    List.append_assoc, readValue, Starts.skipSpace (.inr (.inl rfl))]
  rcases items with _ | ⟨j, items⟩
  · rfl
  have hread := readItems_itemChars hitems (show _ < fuel by omega) rest
  obtain ⟨c, cs, hcs, hc⟩ := starts_itemChars (hwhole j List.mem_cons_self) items
  rw [hcs, spelled_cons, List.cons_append] at hread
  rw [hcs, spelled_cons, List.cons_append]
  -- No item starts with the bracket that ends an empty array.
  have hbracket : c ≠ ']' := by
    rintro rfl
    simp [Starts, Char.isDigit] at hc
  simp only [hc.skipSpace]
  split
  next heq => exact absurd (Symbol.char.inj (List.cons.inj heq).1) hbracket
  next => exact congrArg (fun r => (Node.array r.1 r.2.isSome, r.2)) hread

/-- An object is read up to its brace, if the value of each of its members is read. -/
theorem Readable.object {members : List (String × Json)} (hmembers : ∀ m ∈ members, Readable m.2) :
    Readable (.object members) := by
  intro fuel rest hfuel _
  rw [Json.toChars, List.length_append, List.length_cons, List.length_singleton] at hfuel
  rcases fuel with _ | fuel
  · omega
  rw [Json.toChars, List.cons_append, spelled_cons, spelled_append, List.cons_append,
    List.append_assoc, readValue, Starts.skipSpace (.inr (.inr (.inl rfl)))]
  rcases members with _ | ⟨m, members⟩
  · rfl
  have hread := readMembers_memberChars hmembers (show _ < fuel by omega) rest
  obtain ⟨cs, hcs⟩ := starts_memberChars m members
  rw [hcs, spelled_cons, List.cons_append] at hread
  rw [hcs, spelled_cons, List.cons_append]
  simp only [Starts.skipSpace (c := '"') (.inl rfl)]
  exact congrArg (fun r => (Node.object r.1 r.2.isSome, r.2)) hread

/-- A value whose numbers are whole is read from its written form, up to its end. -/
theorem readable_of_whole {j : Json} (h : j.Whole) : Readable j := by
  induction h with
  | null =>
      intro fuel rest hfuel _
      rcases fuel with _ | fuel
      · simp [Json.toChars] at hfuel
      rw [Json.toChars]
      rfl
  | string s =>
      intro fuel rest hfuel _
      rw [Json.toChars] at hfuel
      rcases fuel with _ | fuel
      · simp [Json.quote] at hfuel
      obtain ⟨after, hafter, hread⟩ := readString_quote s rest
      rw [Json.toChars, hafter, readValue, Starts.skipSpace (.inl rfl)]
      simp only [hread]
      rfl
  | number n =>
      intro fuel rest hfuel hrest
      obtain ⟨c, cs, hcs, hc⟩ := starts_ofInt n
      have hread := readNumber_ofInt n hrest
      rw [Json.ofInt, Json.toChars] at hfuel ⊢
      rw [hcs] at hfuel hread ⊢
      rcases fuel with _ | fuel
      · simp at hfuel
      exact readValue_number hc fuel _ hread
  | array hitems ih => exact Readable.array hitems ih
  | object _ ih => exact Readable.object ih

/-- A text that a value writes is read as that value, to its end. -/
theorem ofBytes_render {j : Json} (h : j.Whole) : ofBytes j.render.toUTF8 = ⟨ofJson j, true⟩ := by
  rw [ofBytes, symbols_toUTF8, Json.render, String.toList_ofList, ofSymbols]
  have hread := readable_of_whole h (2 * (spelled j.toChars).length + 2) []
    (by simp [spelled]; omega) trivial
  rw [List.append_nil] at hread
  rw [hread]
  rfl

end Document

@[simp]
theorem Event.eventType_ofJson (eventType : String) (j : Json) (m : Metadata) :
    (Event.ofJson eventType j m).eventType = eventType :=
  rfl

/-- The body of an event says what was written into it. -/
theorem Event.decode_ofJson {α : Type} {d : Decoder α} {j : Json} {a : α} (hwhole : j.Whole)
    (h : d.Reads j a) (eventType : String) (metadata : Metadata) :
    (Event.ofJson eventType j metadata).decode d = .ok a := by
  have hread : d (Document.ofJson j) = .ok a := h.asWritten
  rw [Event.decode, Event.ofJson, Decoder.ofBytes, Document.ofBytes_render hwhole]
  simp only [Document.decode, hread]
  rfl

/-- What a decoder yields is also what it finds in the body of an event. -/
theorem Decoder.Yields.event {α : Type} {d : Decoder α} {P : α → Prop} (h : d.Yields P) {e : Event}
    {a : α} (ha : e.decode d = .ok a) : P a := by
  unfold Event.decode at ha
  split at ha
  next found hread =>
    cases ha
    obtain ⟨a, ha, hread⟩ := bind_ok hread
    split at hread
    · cases hread
      exact h _ _ ha
    · cases hread
  next => cases ha

end KeyedLedger
