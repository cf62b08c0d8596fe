import KeyedLedger.Identifier
import KeyedLedger.Party.Country
import KeyedLedger.Proofs.Text.Characters

/-! # Names read back as they were written

Identifiers are written in groups of digits and read from them, and no text but one of printed
characters is read as one; the code of a country is two letters that neither trimming nor raising
changes.
-/

namespace KeyedLedger

open KeyedLedger.Text

namespace Identifier

theorem mapM_hexValue? (ds : List (Fin 16)) : (ds.map hexDigit).mapM hexValue? = some ds := by
  induction ds with
  | nil => rfl
  | cons d ds ih => simp [hexValue?_hexDigit, ih]

theorem readHyphenated?_groups {a b c d e : List Char} (ha : a.length = 8) (hb : b.length = 4)
    (hc : c.length = 4) (hd : d.length = 4) (he : e.length = 12) :
    readHyphenated? (a ++ '-' :: b ++ '-' :: c ++ '-' :: d ++ '-' :: e) =
      ofDigits? (a ++ b ++ c ++ d ++ e) := by
  rw [readHyphenated?, if_pos]
  · simp (disch := omega) [List.drop_append, List.drop_of_length_le, ha, hb, hc, hd]
  · simp [ha, hb, hc, hd, he]

theorem take_append_drop_drop (cs : List Char) (m n : Nat) :
    (cs.drop m).take n ++ cs.drop (m + n) = cs.drop m := by
  rw [← List.drop_drop, List.take_append_drop]

/-- An identifier reads as itself. -/
theorem read?_toString (id : Identifier) : read? (toString id) = some id := by
  have hlength : (id.digits.map hexDigit).length = 32 := by simp [id.length_digits]
  have hgroups : readHyphenated? id.toChars = ofDigits? (id.digits.map hexDigit) := by
    rw [toChars]
    generalize id.digits.map hexDigit = cs at hlength
    rw [readHyphenated?_groups]
    · simp only [List.append_assoc]
      rw [take_append_drop_drop cs 16 4, take_append_drop_drop cs 12 4,
        take_append_drop_drop cs 8 4, List.take_append_drop]
    all_goals simp [hlength]
  have hdigits : ofDigits? (id.digits.map hexDigit) = some id := by
    rw [ofDigits?, mapM_hexValue?]
    simp [id.length_digits]
  have htext : (toString id).toList = id.toChars := String.toList_ofList
  have hchars : id.toChars.length = 36 := by simp [toChars, id.length_digits]
  simp only [read?, htext, hchars, hgroups, hdigits]

theorem isVisible_of_ofDigits? {cs : List Char} {id : Identifier} (h : ofDigits? cs = some id) :
    ∀ c ∈ cs, isVisible c = true := by
  rw [ofDigits?] at h
  split at h
  next => cases h
  next ds hds =>
    clear h
    induction cs generalizing ds with
    | nil => exact List.forall_mem_nil _
    | cons c cs ih =>
        simp only [List.mapM_cons, Option.bind_eq_bind, Option.bind_eq_some_iff] at hds
        obtain ⟨d, hd, ds', hds', -⟩ := hds
        exact List.forall_mem_cons.mpr ⟨isVisible_of_hexValue? hd, ih _ hds'⟩

/-- What holds of the characters on both sides of a hyphen holds of all. -/
theorem isVisible_around {cs : List Char} {n : Nat} (h : cs[n]? = some '-')
    (hbefore : ∀ c ∈ cs.take n, isVisible c = true)
    (hafter : ∀ c ∈ cs.drop (n + 1), isVisible c = true) : ∀ c ∈ cs, isVisible c = true := by
  obtain ⟨hn, hc⟩ := List.getElem?_eq_some_iff.mp h
  rw [← List.take_append_drop n cs, List.drop_eq_getElem_cons hn, hc]
  simp only [List.mem_append, List.mem_cons]
  rintro c (hc | rfl | hc)
  · exact hbefore c hc
  · decide
  · exact hafter c hc

theorem isVisible_of_readHyphenated? {cs : List Char} {id : Identifier}
    (h : readHyphenated? cs = some id) : ∀ c ∈ cs, isVisible c = true := by
  rw [readHyphenated?] at h
  split at h
  next hyphens =>
    obtain ⟨-, h8, h13, h18, h23⟩ := hyphens
    have hgroups := isVisible_of_ofDigits? h
    simp only [List.forall_mem_append] at hgroups
    obtain ⟨⟨⟨⟨ha, hb⟩, hc⟩, hd⟩, he⟩ := hgroups
    refine isVisible_around h8 ha (isVisible_around (n := 4) ?_ hb ?_)
    · rwa [List.getElem?_drop]
    rw [List.drop_drop]
    refine isVisible_around (n := 4) ?_ hc ?_
    · rwa [List.getElem?_drop]
    rw [List.drop_drop]
    refine isVisible_around (n := 4) ?_ hd ?_
    · rwa [List.getElem?_drop]
    rw [List.drop_drop]
    exact he
  next => cases h

/-- What reads as an identifier is printed ASCII. -/
theorem isVisible_of_read? {s : String} {id : Identifier} (h : read? s = some id) :
    ∀ c ∈ s.toList, isVisible c = true := by
  simp only [read?] at h
  split at h
  next => exact isVisible_of_ofDigits? h
  next => exact isVisible_of_readHyphenated? h
  next =>
    obtain ⟨inner, hinner, h⟩ := Option.bind_eq_some_iff.mp h
    have hvisible := isVisible_of_readHyphenated? h
    rw [unbraced?.eq_def] at hinner
    split at hinner
    next rest hs =>
      split at hinner
      next hlast =>
        cases hinner
        obtain ⟨inside, rfl⟩ := List.getLast?_eq_some_iff.mp hlast
        rw [List.dropLast_concat] at hvisible
        rw [hs, List.forall_mem_cons, List.forall_mem_append, List.forall_mem_singleton]
        exact ⟨by decide, hvisible, by decide⟩
      next => cases hinner
    next => cases hinner
  next =>
    obtain ⟨after, hafter, h⟩ := Option.bind_eq_some_iff.mp h
    have hvisible := isVisible_of_readHyphenated? h
    rw [afterUrn?] at hafter
    split at hafter
    next hurn =>
      cases hafter
      rw [← List.take_append_drop 9 s.toList, List.forall_mem_append]
      refine ⟨fun c hc => isVisible_of_toLower ?_, hvisible⟩
      have hvisible : "urn:uuid:".toList.all isVisible = true := by decide
      exact List.all_eq_true.mp hvisible _ (hurn ▸ List.mem_map_of_mem hc)
    next => cases hafter
  next => cases h

end Identifier

namespace CountryCode

theorem trim_text (c : CountryCode) : trim c.text = c.text := by
  have hfirst := isBlank_of_isVisible (isVisible_of_isUpper c.first_isUpper)
  have hsecond := isBlank_of_isVisible (isVisible_of_isUpper c.second_isUpper)
  simp [trim, text, dropBlanks, dropBlanksEnd, hfirst, hsecond]

theorem read_text (c : CountryCode) : read c.text = .ok c := by
  have hletters : c.text.toList = [c.first, c.second] := String.toList_ofList
  rw [read, trim_text, hletters]
  simp only [toUpper_of_isUpper c.first_isUpper, toUpper_of_isUpper c.second_isUpper]
  rw [dif_pos ⟨c.first_isUpper, c.second_isUpper⟩]

end CountryCode

end KeyedLedger
