import KeyedLedger.Proofs.Text.Characters
import KeyedLedger.Time.Text

/-! # Timestamps read back as they were written

The lenient reader gives back every timestamp whose year is in range, to the nanosecond: each number
is followed by a character that is no digit, and the zone is `Z`. The strict one, which knows no
signs, does so for the years from 0 to 9999, with the zone `+00:00`.
-/

namespace KeyedLedger.Timestamp

open KeyedLedger.Text

theorem readNumber_append {least most : Nat} {ds : List Char} (hds : ∀ c ∈ ds, c.isDigit = true)
    (hleast : least ≤ ds.length) (hmost : ds.length ≤ most) {c : Char} (hc : c.isDigit = false)
    (rest : List Char) :
    readNumber least most (ds ++ c :: rest) = some (Nat.ofDigitChars 10 ds 0, c :: rest) := by
  have hspan : ((ds ++ c :: rest).take most).takeWhile Char.isDigit = ds := by
    rw [List.take_append, List.take_of_length_le hmost, List.takeWhile_append_of_pos hds]
    cases most - ds.length with
    | zero => simp
    | succ n => simp [hc]
  simp only [readNumber, hspan, if_pos hleast, List.drop_left]

theorem readNumber_padded {least width n : Nat} (hleast : least ≤ width) (hwidth : 0 < width)
    (hn : n < tenTo width) {c : Char} (hc : c.isDigit = false) (rest : List Char) :
    readNumber least width (padded width n ++ c :: rest) = some (n, c :: rest) := by
  have hlength := length_padded hwidth hn
  rw [readNumber_append (fun _ hd => isDigit_of_mem_padded hd) (by omega) (by omega) hc,
    ofDigitChars_padded]

theorem dropBlanks_padded (width n : Nat) (rest : List Char) :
    dropBlanks (padded width n ++ rest) = padded width n ++ rest := by
  obtain ⟨c, cs, hcs⟩ := List.exists_cons_of_ne_nil (padded_ne_nil width n)
  have hc : c.isDigit = true := isDigit_of_mem_padded (hcs ▸ List.mem_cons_self)
  rw [hcs, List.cons_append, dropBlanks_of_isVisible (isVisible_of_isDigit hc)]

theorem readYear_digit {c : Char} (hc : c.isDigit = true) (rest : List Char) :
    readYear (c :: rest) =
      (readNumber 1 4 (c :: rest)).map fun (n, after) => ((n : Int), after) := by
  rw [readYear]
  · exact fun r h => ne_of_isDigit hc (by decide) (List.cons.inj h).1
  · exact fun r h => ne_of_isDigit hc (by decide) (List.cons.inj h).1

/-- A year is read up to the hyphen behind it. -/
theorem readYear_yearChars (year : Int) (rest : List Char) :
    readYear (yearChars year ++ '-' :: rest) = some (year, '-' :: rest) := by
  have hhyphen : ('-' : Char).isDigit = false := by decide
  rw [yearChars]
  split
  next hplain =>
    have hread : readNumber 1 4 (padded 4 year.toNat ++ '-' :: rest) =
        some (year.toNat, '-' :: rest) := by
      refine readNumber_padded (by decide) (by decide) ?_ hhyphen rest
      rw [show tenTo 4 = 10000 from rfl]
      omega
    obtain ⟨c, cs, hcs⟩ := List.exists_cons_of_ne_nil (padded_ne_nil 4 year.toNat)
    have hc : c.isDigit = true := isDigit_of_mem_padded (hcs ▸ List.mem_cons_self)
    rw [hcs, List.cons_append] at hread ⊢
    rw [readYear_digit hc, hread]
    simp only [Option.map_some, Option.some.injEq, Prod.mk.injEq, and_true]
    omega
  next hsigned =>
    have hread : readNumber 1 (padded 4 year.natAbs ++ '-' :: rest).length
        (padded 4 year.natAbs ++ '-' :: rest) = some (year.natAbs, '-' :: rest) := by
      rw [readNumber_append (fun _ hd => isDigit_of_mem_padded hd)
        (List.length_pos_iff.mpr (padded_ne_nil _ _)) (by rw [List.length_append]; omega) hhyphen,
        ofDigitChars_padded]
    by_cases hneg : year < 0
    · rw [if_pos hneg, List.cons_append, readYear, hread]
      simp only [Option.map_some, Option.some.injEq, Prod.mk.injEq, and_true]
      omega
    · rw [if_neg hneg, List.cons_append, readYear, hread]
      simp only [Option.map_some, Option.some.injEq, Prod.mk.injEq, and_true]
      omega

theorem readFraction_padded {width n : Nat} (hpos : 0 < width) (hwidth : width ≤ 9)
    (hn : n < tenTo width) {c : Char} (hc : c.isDigit = false) (rest : List Char) :
    readFraction ('.' :: padded width n ++ c :: rest) =
      some (n * tenTo (9 - width), c :: rest) := by
  have hlength := length_padded hpos hn
  rw [List.cons_append, readFraction, readNumber_append (fun _ hd => isDigit_of_mem_padded hd)
    (by omega) (by omega) hc, ofDigitChars_padded]
  simp [hlength, hc]

/-- The digits of a second are read up to a character that cannot belong to them. -/
theorem readFraction_fractionChars {nano : Nat} (hnano : nano < 1000000000) {c : Char}
    (hc : c.isDigit = false) (hpoint : c ≠ '.') (rest : List Char) :
    readFraction (fractionChars nano ++ c :: rest) = some (nano, c :: rest) := by
  rw [fractionChars]
  split
  next hzero =>
    rw [hzero, List.nil_append, readFraction]
    exact fun r h => hpoint (List.cons.inj h).1
  split
  next hmillis =>
    have hlt : nano / 1000000 < tenTo 3 := by
      rw [show tenTo 3 = 1000 from rfl]
      omega
    rw [readFraction_padded (by decide) (by decide) hlt hc, show tenTo (9 - 3) = 1000000 from rfl,
      Nat.div_mul_cancel (Nat.dvd_of_mod_eq_zero hmillis)]
  split
  next hmicros =>
    have hlt : nano / 1000 < tenTo 6 := by
      rw [show tenTo 6 = 1000000 from rfl]
      omega
    rw [readFraction_padded (by decide) (by decide) hlt hc, show tenTo (9 - 6) = 1000 from rfl,
      Nat.div_mul_cancel (Nat.dvd_of_mod_eq_zero hmicros)]
  next =>
    rw [readFraction_padded (by decide) (by decide) hnano hc, Nat.sub_self, tenTo_zero,
      Nat.mul_one]

theorem later_zero (d : Date) : d.later 0 = d := by
  rw [Date.later, dif_pos (show d.day + 0 ≤ _ from d.day_le)]
  rfl

theorem ofZone_zero (t : Timestamp) : t.ofZone 0 = t := by
  have hhour := t.hour_lt
  have hminute := t.minute_lt
  have hdays : ((t.hour : Int) * 60 + t.minute - 0) / 1440 = 0 := by omega
  have hofDay : (((t.hour : Int) * 60 + t.minute - 0) % 1440).toNat = t.hour * 60 + t.minute := by
    omega
  simp only [ofZone, hdays, hofDay, Int.toNat_zero, later_zero, Int.le_refl, if_true]
  have hback : (t.hour * 60 + t.minute) / 60 = t.hour := by omega
  have hrest : (t.hour * 60 + t.minute) % 60 = t.minute := by omega
  cases t
  simp_all

theorem ofFields?_self (t : Timestamp) (h : yearInRange t.date.year = true) :
    ofFields? t.date.year t.date.month t.date.day t.hour t.minute t.second t.nano 0 = some t := by
  have hdate : Date.make? t.date.year t.date.month t.date.day = some t.date := by
    rw [Date.make?, dif_pos ⟨t.date.month_pos, t.date.month_le, t.date.day_pos, t.date.day_le⟩]
  have htime : make? t.date t.hour t.minute t.second t.nano = some t := by
    rw [make?, dif_pos ⟨t.hour_lt, t.minute_lt, t.second_le, t.nano_lt⟩]
  simp [ofFields?, hdate, htime, ofZone_zero, h]

theorem dropBlanks_yearChars (year : Int) (rest : List Char) :
    dropBlanks (yearChars year ++ rest) = yearChars year ++ rest := by
  rw [yearChars]
  split
  · exact dropBlanks_padded _ _ _
  · rw [List.cons_append]
    apply dropBlanks_of_isVisible
    split <;> decide

/-! ## Field by field -/

theorem bind_of_eq_some {α β : Type} {x : Option α} {a : α} {f : α → Option β} (h : x = some a) :
    (x >>= f) = f a := by
  rw [h]
  rfl

theorem readYear_field (year : Int) (rest : List Char) :
    readYear (dropBlanks (yearChars year ++ '-' :: rest)) = some (year, '-' :: rest) := by
  rw [dropBlanks_yearChars, readYear_yearChars]

theorem readNumber_field {n : Nat} (hn : n < 100) {c : Char} (hc : c.isDigit = false)
    (rest : List Char) :
    readNumber 1 2 (dropBlanks (padded 2 n ++ c :: rest)) = some (n, c :: rest) := by
  rw [dropBlanks_padded, readNumber_padded (by decide) (by decide) hn hc]

theorem expect_field {c : Char} (hc : isVisible c = true) (rest : List Char) :
    expect c (dropBlanks (c :: rest)) = some rest := by
  rw [dropBlanks_of_isVisible hc]
  exact if_pos rfl

/-- The fraction of a second and the zone start with a character that is no digit. -/
theorem exists_cons_fractionChars (nano : Nat) {z : Char} (hz : z.isDigit = false)
    (zone : List Char) :
    ∃ c rest, fractionChars nano ++ z :: zone = c :: rest ∧ c.isDigit = false := by
  rw [fractionChars]
  split
  · exact ⟨z, zone, rfl, hz⟩
  split
  · exact ⟨'.', _, rfl, by decide⟩
  split
  · exact ⟨'.', _, rfl, by decide⟩
  · exact ⟨'.', _, rfl, by decide⟩

/-- The numbers of a date and a time have at most two digits. -/
theorem fields_lt (t : Timestamp) :
    t.date.month < 100 ∧ t.date.day < 100 ∧ t.hour < 100 ∧ t.minute < 100 ∧ t.second < 100 := by
  have hmonth := t.date.month_le
  have hday := Nat.le_trans t.date.day_le (daysIn_le _ _)
  have hhour := t.hour_lt
  have hminute := t.minute_lt
  have hsecond := t.second_le
  omega

/-- A timestamp reads as itself. -/
theorem readLenient?_toString {t : Timestamp} (h : yearInRange t.date.year = true) :
    readLenient? (toString t) = some t := by
  have htext : (toString t).toList = t.toChars ++ ['Z'] := String.toList_ofList
  obtain ⟨hmonth, hday, hhour, hminute, hsecond⟩ := t.fields_lt
  have hzone : ('Z' : Char).isDigit = false := by decide
  obtain ⟨c, rest, htail, hc⟩ := exists_cons_fractionChars t.nano hzone []
  have hfraction := readFraction_fractionChars t.nano_lt hzone (by decide) []
  rw [htail] at hfraction
  rw [readLenient?, htext, toChars]
  simp only [List.append_assoc, List.cons_append, htail]
  -- The date.
  refine (bind_of_eq_some (readYear_field _ _)).trans ?_
  refine (bind_of_eq_some (expect_field (by decide) _)).trans ?_
  refine (bind_of_eq_some (readNumber_field hmonth (by decide) _)).trans ?_
  refine (bind_of_eq_some (expect_field (by decide) _)).trans ?_
  refine (bind_of_eq_some (readNumber_field hday (by decide) _)).trans ?_
  refine (bind_of_eq_some (a := padded 2 t.hour ++ _) rfl).trans ?_
  -- The time of day, up to its last number: what stops that one depends on the fraction.
  refine (bind_of_eq_some (readNumber_field hhour (by decide) _)).trans ?_
  refine (bind_of_eq_some (expect_field (by decide) _)).trans ?_
  refine (bind_of_eq_some (readNumber_field hminute (by decide) _)).trans ?_
  refine (bind_of_eq_some (expect_field (by decide) _)).trans ?_
  refine (bind_of_eq_some (readNumber_field hsecond hc _)).trans ?_
  refine (bind_of_eq_some hfraction).trans ?_
  -- The zone.
  refine (bind_of_eq_some (a := ((0 : Int), ([] : List Char))) ?_).trans ?_
  · rw [dropBlanks_of_isVisible (by decide)]
    rfl
  exact ofFields?_self t h

/-! ## What has been read -/

theorem yearInRange_of_ofFields? {year : Int} {month day hour minute second nano : Nat}
    {ahead : Int} {t : Timestamp}
    (h : ofFields? year month day hour minute second nano ahead = some t) :
    yearInRange t.date.year = true := by
  obtain ⟨date, -, h⟩ := Option.bind_eq_some_iff.mp h
  obtain ⟨time, -, h⟩ := Option.bind_eq_some_iff.mp h
  dsimp only at h
  split at h
  next hrange =>
    cases h
    exact hrange.2
  next => cases h

/-- A timestamp that has been read can be written. -/
theorem yearInRange_of_readLenient? {s : String} {t : Timestamp} (h : readLenient? s = some t) :
    yearInRange t.date.year = true := by
  -- Whatever is read on the way, the reader ends in `ofFields?`, which checks the year.
  obtain ⟨⟨year, cs⟩, -, h⟩ := Option.bind_eq_some_iff.mp h
  obtain ⟨cs, -, h⟩ := Option.bind_eq_some_iff.mp h
  obtain ⟨⟨month, cs⟩, -, h⟩ := Option.bind_eq_some_iff.mp h
  obtain ⟨cs, -, h⟩ := Option.bind_eq_some_iff.mp h
  obtain ⟨⟨day, cs⟩, -, h⟩ := Option.bind_eq_some_iff.mp h
  obtain ⟨cs, -, h⟩ := Option.bind_eq_some_iff.mp h
  obtain ⟨⟨hour, cs⟩, -, h⟩ := Option.bind_eq_some_iff.mp h
  obtain ⟨cs, -, h⟩ := Option.bind_eq_some_iff.mp h
  obtain ⟨⟨minute, cs⟩, -, h⟩ := Option.bind_eq_some_iff.mp h
  obtain ⟨cs, -, h⟩ := Option.bind_eq_some_iff.mp h
  obtain ⟨⟨second, cs⟩, -, h⟩ := Option.bind_eq_some_iff.mp h
  obtain ⟨⟨nano, cs⟩, -, h⟩ := Option.bind_eq_some_iff.mp h
  dsimp only at h
  split at h
  all_goals
    obtain ⟨⟨ahead, cs⟩, -, h⟩ := Option.bind_eq_some_iff.mp h
    dsimp only at h
    split at h
    · exact yearInRange_of_ofFields? h
    · cases h

/-! ## The strict format -/

theorem readNumber_two {n : Nat} (hn : n < 100) {c : Char} (hc : c.isDigit = false)
    (rest : List Char) : readNumber 2 2 (padded 2 n ++ c :: rest) = some (n, c :: rest) :=
  readNumber_padded (Nat.le_refl 2) (by decide) hn hc rest

theorem expect_cons (c : Char) (rest : List Char) : expect c (c :: rest) = some rest :=
  if_pos rfl

/-- A timestamp of a year without a sign reads as itself. -/
theorem readStrict?_toOffsetString {t : Timestamp}
    (h : 0 ≤ t.date.year ∧ t.date.year ≤ 9999) : readStrict? t.toOffsetString = some t := by
  have htext : t.toOffsetString.toList = t.toChars ++ ['+', '0', '0', ':', '0', '0'] :=
    String.toList_ofList
  have hyear : yearChars t.date.year = padded 4 t.date.year.toNat := if_pos h
  have hnat : ((t.date.year.toNat : Nat) : Int) = t.date.year := Int.toNat_of_nonneg h.1
  have hlt : t.date.year.toNat < tenTo 4 := by
    rw [show tenTo 4 = 10000 from rfl]
    omega
  have hrange : yearInRange t.date.year = true := by
    simp only [yearInRange, decide_eq_true_eq]
    omega
  obtain ⟨hmonth, hday, hhour, hminute, hsecond⟩ := t.fields_lt
  have hzone : ('+' : Char).isDigit = false := by decide
  obtain ⟨c, rest, htail, hc⟩ := exists_cons_fractionChars t.nano hzone ['0', '0', ':', '0', '0']
  have hfraction :=
    readFraction_fractionChars t.nano_lt hzone (by decide) ['0', '0', ':', '0', '0']
  rw [htail] at hfraction
  rw [readStrict?, htext, toChars, hyear]
  simp only [List.append_assoc, List.cons_append, htail]
  refine (bind_of_eq_some (readNumber_padded (by decide) (by decide) hlt (by decide) _)).trans ?_
  refine (bind_of_eq_some (expect_cons _ _)).trans ?_
  refine (bind_of_eq_some (readNumber_two hmonth (by decide) _)).trans ?_
  refine (bind_of_eq_some (expect_cons _ _)).trans ?_
  refine (bind_of_eq_some (readNumber_two hday (by decide) _)).trans ?_
  refine (bind_of_eq_some (a := padded 2 t.hour ++ _) rfl).trans ?_
  refine (bind_of_eq_some (readNumber_two hhour (by decide) _)).trans ?_
  refine (bind_of_eq_some (expect_cons _ _)).trans ?_
  refine (bind_of_eq_some (readNumber_two hminute (by decide) _)).trans ?_
  refine (bind_of_eq_some (expect_cons _ _)).trans ?_
  refine (bind_of_eq_some (readNumber_two hsecond hc _)).trans ?_
  refine (bind_of_eq_some hfraction).trans ?_
  refine (bind_of_eq_some (a := ((0 : Int), ([] : List Char))) rfl).trans ?_
  rw [← ofFields?_self t hrange, ← hnat]
  rfl

end KeyedLedger.Timestamp

namespace KeyedLedger.Sample

/-- A nanosecond into a leap second. -/
def leapSecond : Timestamp :=
  ((Date.make? 2016 12 31).bind fun day => Timestamp.make? day 23 59 60 1).getD .start2025

end KeyedLedger.Sample
