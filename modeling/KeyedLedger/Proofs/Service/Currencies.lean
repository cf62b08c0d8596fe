import KeyedLedger.Proofs.Entity.Currencies
import KeyedLedger.Proofs.Service.Order
import Mathlib.Data.List.Perm.Basic

/-! # Requests list currencies in any order

The texts of a request are read as currencies one by one, and the list that they give is put in
order. A request that is otherwise in order is accepted for its currencies exactly if there are some,
each text names one, and no two texts name the same. Its command lists them in order, whatever their
order and their spelling in the request.
-/

namespace KeyedLedger

/-- A list is mapped without an error exactly if each of its items is. -/
theorem mapM_eq_ok_iff {ε α β : Type} {f : α → Except ε β} {xs : List α} {ys : List β} :
    xs.mapM f = .ok ys ↔ List.Forall₂ (fun x y => f x = .ok y) xs ys := by
  induction xs generalizing ys with
  | nil =>
      rw [List.forall₂_nil_left_iff]
      constructor
      · rintro ⟨⟩
        rfl
      · rintro rfl
        rfl
  | cons x xs ih =>
      rw [List.mapM_cons]
      constructor
      · intro h
        obtain ⟨y, hy, h⟩ := bind_ok h
        obtain ⟨rest, hrest, h⟩ := bind_ok h
        cases h
        exact .cons hy (ih.mp hrest)
      · intro h
        cases h with
        | cons hy hrest =>
            rw [hy, ih.mpr hrest]
            rfl

namespace Currency

/-! ## Texts that name currencies -/

/-- A text names a currency: less the blanks around it, it is the code of the currency, whatever the
case of its ASCII letters. -/
def Named (raw : String) (c : Currency) : Prop :=
  Text.lower (Text.trim raw) = Text.lower c.code

theorem Named.unique {raw : String} {c d : Currency} (hc : Named raw c) (hd : Named raw d) :
    c = d := by
  have hcodes : Text.lower c.code = Text.lower d.code := hc.symm.trans hd
  revert hcodes
  cases c <;> cases d <;> decide

theorem read?_eq_some_iff {raw : String} {c : Currency} : read? raw = some c ↔ Named raw c := by
  have hsame : ∀ d : Currency, Text.sameIgnoringCase d.code (Text.trim raw) = true ↔ Named raw d := by
    intro d
    rw [Text.sameIgnoringCase_comm, Text.sameIgnoringCase, beq_iff_eq, Named]
  have hfound : ∀ d, read? raw = some d → Named raw d := by
    intro d hd
    rw [read?] at hd
    have hcode := List.find?_some hd
    exact (hsame d).mp hcode
  refine ⟨hfound c, fun h => ?_⟩
  cases hread : read? raw with
  | none =>
      rw [read?, List.find?_eq_none] at hread
      exact absurd ((hsame c).mpr h) (hread c c.mem_all)
  | some d => rw [(hfound d hread).unique h]

theorem read_eq_ok_iff {raw : String} {c : Currency} : Currency.read raw = .ok c ↔ Named raw c := by
  rw [← read?_eq_some_iff, Currency.read]
  cases read? raw with
  | none => simp [Refusal.orElse]
  | some d => simp [Refusal.orElse]

theorem mapM_read_eq_ok_iff {raws : List String} {listed : List Currency} :
    raws.mapM Currency.read = .ok listed ↔ List.Forall₂ Named raws listed := by
  simp only [mapM_eq_ok_iff, read_eq_ok_iff]

theorem exists_forall₂_named_iff {raws : List String} :
    (∃ listed, List.Forall₂ Named raws listed) ↔ ∀ raw ∈ raws, ∃ c, Named raw c := by
  induction raws with
  | nil => simp
  | cons raw rest ih =>
      rw [List.forall_mem_cons, ← ih]
      constructor
      · rintro ⟨listed, h⟩
        cases h with
        | cons hraw hrest => exact ⟨⟨_, hraw⟩, _, hrest⟩
      · rintro ⟨⟨c, hraw⟩, listed, hrest⟩
        exact ⟨c :: listed, .cons hraw hrest⟩

/-- The same currency is named by two texts. -/
def SameNamed (raw other : String) : Prop :=
  ∃ c, Named raw c ∧ Named other c

theorem mem_of_forall₂_named {raws : List String} {listed : List Currency}
    (h : List.Forall₂ Named raws listed) (c : Currency) :
    c ∈ listed ↔ ∃ raw ∈ raws, Named raw c := by
  induction h with
  | nil => simp
  | @cons raw d raws listed hraw _ ih =>
      have hhead : c = d ↔ Named raw c := by
        constructor
        · rintro rfl
          exact hraw
        · exact fun hc => hc.unique hraw
      rw [List.mem_cons, ih, hhead, List.exists_mem_cons_iff]

/-- A list that has been read repeats nothing exactly if no two of its texts name the same. -/
theorem nodup_iff_of_forall₂_named {raws : List String} {listed : List Currency}
    (h : List.Forall₂ Named raws listed) :
    listed.Nodup ↔ raws.Pairwise fun raw other => ¬ SameNamed raw other := by
  induction h with
  | nil => simp
  | @cons raw c raws listed hraw hrest ih =>
      rw [List.nodup_cons, List.pairwise_cons, ih, mem_of_forall₂_named hrest]
      have hhead : (∃ other ∈ raws, Named other c) ↔ ∃ other ∈ raws, SameNamed raw other := by
        constructor
        · rintro ⟨other, hmem, hother⟩
          exact ⟨other, hmem, c, hraw, hother⟩
        · rintro ⟨other, hmem, d, hd, hother⟩
          rw [← hd.unique hraw]
          exact ⟨other, hmem, hother⟩
      rw [hhead]
      simp only [not_exists, not_and]

/-- Some texts are others in another order, and each spelled in another way. -/
def Respelled (raws others : List String) : Prop :=
  ∃ reordered, reordered.Perm raws ∧ List.Forall₂ SameNamed reordered others

theorem forall₂_named_of_sameNamed {raws others : List String} {listed : List Currency}
    (hraws : List.Forall₂ Named raws listed) (h : List.Forall₂ SameNamed raws others) :
    List.Forall₂ Named others listed := by
  induction hraws generalizing others with
  | nil =>
      cases h
      exact .nil
  | cons hraw _ ih =>
      cases h with
      | cons hsame hrest =>
          obtain ⟨d, hd, hother⟩ := hsame
          rw [hd.unique hraw] at hother
          exact .cons hother (ih hrest)

/-- Texts in another order and spelling are read as the same currencies in another order. -/
theorem Respelled.named {raws others : List String} {listed : List Currency}
    (h : Respelled raws others) (hraws : List.Forall₂ Named raws listed) :
    ∃ relisted, List.Forall₂ Named others relisted ∧ relisted.Perm listed := by
  obtain ⟨reordered, hperm, hsame⟩ := h
  obtain ⟨relisted, hnamed, hrelisted⟩ := List.perm_comp_forall₂ hperm hraws
  exact ⟨relisted, forall₂_named_of_sameNamed hnamed hsame, hrelisted⟩

end Currency

namespace AccountRequest

open Currency

variable {r : AccountRequest} {customer : CustomerId} {country : CountryCode}

/-- The command of a request whose customer and country are in order is told by its currencies. -/
theorem toCommand_eq_ok_iff {c : OpenAccount} (hcustomer : CustomerId.read r.customer = .ok customer)
    (hcountry : CountryCode.read r.country = .ok country) :
    r.toCommand = .ok c ↔ c.customer = customer ∧ c.country = country ∧
      ∃ listed, List.Forall₂ Named r.currencies listed ∧ distinct listed = .ok c.currencies := by
  constructor
  · intro h
    obtain ⟨listed, hlisted, h⟩ := bind_ok h
    obtain ⟨customer', hcustomer', h⟩ := bind_ok h
    obtain ⟨country', hcountry', h⟩ := bind_ok h
    obtain ⟨currencies, hdistinct, h⟩ := bind_ok h
    cases h
    cases hcustomer.symm.trans hcustomer'
    cases hcountry.symm.trans hcountry'
    exact ⟨rfl, rfl, listed, mapM_read_eq_ok_iff.mp hlisted, hdistinct⟩
  · rintro ⟨rfl, rfl, listed, hlisted, hdistinct⟩
    rw [toCommand, mapM_read_eq_ok_iff.mpr hlisted, hcustomer, hcountry]
    change (distinct listed >>= fun currencies => _) = _
    rw [hdistinct]
    rfl

/-- What comes of a request of a customer in a country is told by its list of currencies. -/
structure JudgedByCurrencies (r : AccountRequest) (customer : CustomerId) (country : CountryCode) :
    Prop where
  /-- The request is accepted if there are texts, each names a currency, and no two the same. -/
  accepted : (∃ c, r.toCommand = .ok c) ↔ r.currencies ≠ [] ∧
    (∀ raw ∈ r.currencies, ∃ k, Named raw k) ∧
    r.currencies.Pairwise fun raw other => ¬ SameNamed raw other
  /-- The command lists the named currencies, in order. -/
  ordered : ∀ c, r.toCommand = .ok c → c.customer = customer ∧ c.country = country ∧
    c.currencies.Pairwise Before ∧
    ∃ listed, List.Forall₂ Named r.currencies listed ∧ c.currencies.Perm listed
  /-- The texts may as well be in another order, and spelled in other ways. -/
  respelled : ∀ c others, r.toCommand = .ok c → Respelled r.currencies others →
    toCommand { r with currencies := others } = .ok c

theorem judgedByCurrencies (hcustomer : CustomerId.read r.customer = .ok customer)
    (hcountry : CountryCode.read r.country = .ok country) :
    r.JudgedByCurrencies customer country where
  accepted := by
    constructor
    · rintro ⟨c, hc⟩
      obtain ⟨-, -, listed, hnamed, hdistinct⟩ := (toCommand_eq_ok_iff hcustomer hcountry).mp hc
      obtain ⟨hsome, hnodup⟩ := exists_distinct_iff.mp ⟨_, hdistinct⟩
      refine ⟨?_, exists_forall₂_named_iff.mp ⟨listed, hnamed⟩,
        (nodup_iff_of_forall₂_named hnamed).mp hnodup⟩
      intro hempty
      rw [hempty, List.forall₂_nil_left_iff] at hnamed
      exact hsome hnamed
    · rintro ⟨hsome, hall, hdiffer⟩
      obtain ⟨listed, hnamed⟩ := exists_forall₂_named_iff.mpr hall
      have hlisted : listed ≠ [] := by
        rintro rfl
        exact hsome (List.forall₂_nil_right_iff.mp hnamed)
      obtain ⟨currencies, hdistinct⟩ := exists_distinct_iff.mpr
        ⟨hlisted, (nodup_iff_of_forall₂_named hnamed).mpr hdiffer⟩
      exact ⟨⟨customer, country, currencies⟩, (toCommand_eq_ok_iff hcustomer hcountry).mpr
        ⟨rfl, rfl, listed, hnamed, hdistinct⟩⟩
  ordered := by
    intro c hc
    obtain ⟨hc', hcountry', listed, hnamed, hdistinct⟩ :=
      (toCommand_eq_ok_iff hcustomer hcountry).mp hc
    obtain ⟨-, hperm, hordered⟩ := distinct_eq_ok_iff.mp hdistinct
    exact ⟨hc', hcountry', hordered, listed, hnamed, hperm⟩
  respelled := by
    intro c others hc hrespelled
    obtain ⟨hc', hcountry', listed, hnamed, hdistinct⟩ :=
      (toCommand_eq_ok_iff hcustomer hcountry).mp hc
    obtain ⟨hsome, hperm, hordered⟩ := distinct_eq_ok_iff.mp hdistinct
    obtain ⟨relisted, hrenamed, hrelisted⟩ := hrespelled.named hnamed
    have hsame : distinct relisted = .ok c.currencies := by
      refine distinct_eq_ok_iff.mpr ⟨?_, hperm.trans hrelisted.symm, hordered⟩
      rintro rfl
      exact hsome (List.nil_perm.mp hrelisted)
    exact (toCommand_eq_ok_iff (r := { r with currencies := others }) hcustomer hcountry).mpr
      ⟨hc', hcountry', relisted, hrenamed, hsame⟩

end AccountRequest

/-- A request and an account are judged by their lists of currencies, whatever their length and
order, and a list is put in order as by sorting it and comparing neighbours. -/
theorem currencies_in_any_order {r : AccountRequest} {customer : CustomerId} {country : CountryCode}
    (hcustomer : CustomerId.read r.customer = .ok customer)
    (hcountry : CountryCode.read r.country = .ok country) :
    r.JudgedByCurrencies customer country ∧
      (∀ owner residence listed now draw, Account.OpensAsListed listed
        (Account.opening owner residence listed now draw)) ∧
      ∀ listed sorted : List Currency, listed ≠ [] → sorted.Perm listed →
        sorted.Pairwise (fun c d => c.rank ≤ d.rank) →
        Currency.distinct listed = Currency.compared sorted :=
  ⟨AccountRequest.judgedByCurrencies hcustomer hcountry, Account.opening_as_listed,
    fun _ _ => Currency.distinct_of_sorted⟩

namespace Sample

/-- A request that lists three currencies out of order, each in a spelling of its own. -/
def scrambledRequest : AccountRequest :=
  ⟨" CUST1 ", "ee", ["usd", " Eur ", "\tgBp"]⟩

theorem currencies_in_any_order_scrambled :
    CustomerId.read scrambledRequest.customer = .ok customer ∧
      CountryCode.read scrambledRequest.country = .ok country ∧
      scrambledRequest.JudgedByCurrencies customer country ∧
      Account.OpensAsListed [.usd, .sek, .usd, .sek]
        (Account.opening customer country [.usd, .sek, .usd, .sek] .start2025 (draw 0)) ∧
      Currency.distinct [.usd, .sek, .usd, .sek] = .error (.duplicateCurrency .sek) := by
  have hcustomer : CustomerId.read scrambledRequest.customer = .ok customer := rfl
  have hcountry : CountryCode.read scrambledRequest.country = .ok country := rfl
  obtain ⟨hjudged, hopens, hsorted⟩ := currencies_in_any_order hcustomer hcountry
  exact ⟨hcustomer, hcountry, hjudged, hopens customer country _ .start2025 (draw 0),
    hsorted [.usd, .sek, .usd, .sek] [.sek, .sek, .usd, .usd] (by decide) (by decide) (by decide)⟩

end Sample

end KeyedLedger
