import KeyedLedger.Proofs.Entity.Opening

/-! # Lists of currencies

A list of currencies is put in order unless it is empty or repeats itself. The result does not
depend on the order of the list: it is its one arrangement in which each currency comes before the
next. Sorting the list and comparing neighbours finds the same repeated currency, the smallest.
-/

namespace KeyedLedger

namespace Currency

/-- A currency comes before another one in the order of the ledger. -/
def Before (c d : Currency) : Prop :=
  c.rank < d.rank

instance : DecidableRel Before := fun c d => inferInstanceAs (Decidable (c.rank < d.rank))

theorem rank_injective : Function.Injective rank := by
  intro c d
  cases c <;> cases d <;> simp [rank]

theorem Before.ne {c d : Currency} (h : Before c d) : c ≠ d := by
  rintro rfl
  exact Nat.lt_irrefl _ h

theorem Before.asymm {c d : Currency} (h : Before c d) : ¬ Before d c :=
  Nat.lt_asymm h

theorem pairwise_all : all.Pairwise Before := by
  decide

/-- A list in order has no other arrangement in order. -/
theorem eq_of_perm {listed others : List Currency} (hlisted : listed.Pairwise Before)
    (hothers : others.Pairwise Before) (h : listed.Perm others) : listed = others :=
  h.eq_of_pairwise (fun _ _ _ _ hbefore hafter => absurd hafter hbefore.asymm) hlisted hothers

/-- In a list in order, the first currency with a property comes before the others that have it. -/
theorem not_before_of_find? {listed : List Currency} {p : Currency → Bool} {c : Currency}
    (hlisted : listed.Pairwise Before) (h : listed.find? p = some c) :
    ∀ d ∈ listed, p d = true → ¬ Before d c := by
  induction listed with
  | nil => simp at h
  | cons first rest ih =>
      obtain ⟨hfirst, hrest⟩ := List.pairwise_cons.mp hlisted
      rw [List.find?_cons] at h
      intro d hd hp
      split at h
      next =>
        cases h
        rcases List.mem_cons.mp hd with rfl | hd
        · exact Nat.lt_irrefl _
        · exact (hfirst d hd).asymm
      next hnot =>
        rcases List.mem_cons.mp hd with rfl | hd
        · rw [hp] at hnot
          cases hnot
        · exact ih hrest h d hd hp

/-! ## Lists without repetition -/

/-- Of the currencies that a list repeats, the one that comes first in the order. -/
def FirstRepeated (listed : List Currency) (c : Currency) : Prop :=
  1 < listed.count c ∧ ∀ d, 1 < listed.count d → ¬ Before d c

theorem FirstRepeated.not_nodup {listed : List Currency} {c : Currency}
    (h : FirstRepeated listed c) : ¬ listed.Nodup := by
  intro hnodup
  have hle := List.nodup_iff_count_le_one.mp hnodup c
  have hlt := h.1
  omega

theorem FirstRepeated.unique {listed : List Currency} {c d : Currency}
    (hc : FirstRepeated listed c) (hd : FirstRepeated listed d) : c = d := by
  have hle := hd.2 c hc.1
  have hge := hc.2 d hd.1
  simp only [Before] at hle hge
  exact rank_injective (by omega)

/-- A list is empty, or repeats a currency, or is put in order. -/
theorem distinct_cases (listed : List Currency) :
    (listed = [] ∧ distinct listed = .error .noCurrencies) ∨
      (∃ c, FirstRepeated listed c ∧ distinct listed = .error (.duplicateCurrency c)) ∨
      ∃ currencies, listed ≠ [] ∧ currencies.Perm listed ∧ currencies.Pairwise Before ∧
        distinct listed = .ok currencies := by
  by_cases hempty : listed = []
  · left
    rw [hempty]
    exact ⟨rfl, rfl⟩
  right
  have hsome : listed.isEmpty = false := by simpa using hempty
  rw [distinct, hsome]
  cases hfind : all.find? fun c => 1 < listed.count c with
  | some c =>
      left
      refine ⟨c, ⟨by simpa using List.find?_some hfind, fun d hd => ?_⟩, rfl⟩
      exact not_before_of_find? pairwise_all hfind d d.mem_all (by simpa using hd)
  | none =>
      right
      have hnodup : listed.Nodup := by
        rw [List.nodup_iff_count_le_one]
        intro c
        simpa using List.find?_eq_none.mp hfind c c.mem_all
      refine ⟨_, hempty, ?_, pairwise_all.filter _, rfl⟩
      rw [List.perm_ext_iff_of_nodup (nodup_all.filter _) hnodup]
      intro c
      simp [c.mem_all]

theorem distinct_eq_ok_iff {listed currencies : List Currency} :
    distinct listed = .ok currencies ↔
      listed ≠ [] ∧ currencies.Perm listed ∧ currencies.Pairwise Before := by
  rcases distinct_cases listed with ⟨hempty, hdistinct⟩ | ⟨c, hrepeated, hdistinct⟩ |
    ⟨others, hsome, hperm, hothers, hdistinct⟩
  · rw [hdistinct]
    constructor
    · simp
    · rintro ⟨hsome, -⟩
      exact absurd hempty hsome
  · rw [hdistinct]
    constructor
    · simp
    · rintro ⟨-, hperm, hordered⟩
      exact absurd (hperm.nodup (hordered.imp Before.ne)) hrepeated.not_nodup
  · rw [hdistinct, Except.ok.injEq]
    constructor
    · rintro rfl
      exact ⟨hsome, hperm, hothers⟩
    · rintro ⟨-, hperm', hordered⟩
      exact eq_of_perm hothers hordered (hperm.trans hperm'.symm)

theorem exists_distinct_iff {listed : List Currency} :
    (∃ currencies, distinct listed = .ok currencies) ↔ listed ≠ [] ∧ listed.Nodup := by
  constructor
  · rintro ⟨currencies, h⟩
    obtain ⟨hsome, hperm, hordered⟩ := distinct_eq_ok_iff.mp h
    exact ⟨hsome, hperm.nodup (hordered.imp Before.ne)⟩
  · rintro ⟨hsome, hnodup⟩
    rcases distinct_cases listed with ⟨hempty, -⟩ | ⟨c, hrepeated, -⟩ | ⟨currencies, -, -, -, h⟩
    · exact absurd hempty hsome
    · exact absurd hnodup hrepeated.not_nodup
    · exact ⟨currencies, h⟩

/-! ## Comparing neighbours -/

/-- The first currency of a list that is followed by itself. -/
def doubled? : List Currency → Option Currency
  | c :: d :: rest => if c = d then some c else doubled? (d :: rest)
  | _ => none

/-- A sorted list once neighbours have been compared: it is refused for the first currency that is
followed by itself. -/
def compared (sorted : List Currency) : Except Refusal (List Currency) :=
  match doubled? sorted with
  | some c => .error (.duplicateCurrency c)
  | none => .ok sorted

/-- A currency that is followed by itself, and that no other one comes before, is the first that is
repeated. -/
theorem firstRepeated_double {c : Currency} {rest : List Currency}
    (hleast : ∀ d ∈ rest, c.rank ≤ d.rank) : FirstRepeated (c :: c :: rest) c := by
  refine ⟨by simp, fun d hd => Nat.not_lt.mpr ?_⟩
  have hmem : d ∈ c :: c :: rest := List.count_pos_iff.mp (by omega)
  rcases List.mem_cons.mp hmem with rfl | hmem
  · exact Nat.le_refl _
  rcases List.mem_cons.mp hmem with rfl | hmem
  · exact Nat.le_refl _
  · exact hleast d hmem

/-- A currency that comes before all others of a list changes nothing about what is repeated. -/
theorem FirstRepeated.cons {c d : Currency} {rest : List Currency} (h : FirstRepeated rest d)
    (hbefore : ∀ k ∈ rest, Before c k) : FirstRepeated (c :: rest) d := by
  have honce : rest.count c = 0 :=
    List.count_eq_zero_of_not_mem fun hmem => (hbefore c hmem).ne rfl
  refine ⟨Nat.lt_of_lt_of_le h.1 List.count_le_count_cons, fun k hk => h.2 k ?_⟩
  rw [List.count_cons] at hk
  split at hk
  next heq =>
    rw [← eq_of_beq heq, honce] at hk
    omega
  next => exact hk

/-- A list that is sorted but for repetitions is in order unless a currency is followed by itself,
and the first such currency is the first that is repeated. -/
theorem doubled?_cases {sorted : List Currency}
    (hsorted : sorted.Pairwise fun c d => c.rank ≤ d.rank) :
    (doubled? sorted = none ∧ sorted.Pairwise Before) ∨
      ∃ c, doubled? sorted = some c ∧ FirstRepeated sorted c := by
  induction sorted with
  | nil => exact Or.inl ⟨rfl, List.Pairwise.nil⟩
  | cons c rest ih =>
      obtain ⟨hfirst, hrest⟩ := List.pairwise_cons.mp hsorted
      cases rest with
      | nil => exact Or.inl ⟨rfl, List.pairwise_singleton _ _⟩
      | cons d rest =>
      by_cases hsame : c = d
      · subst hsame
        exact Or.inr ⟨c, if_pos rfl, firstRepeated_double (List.pairwise_cons.mp hrest).1⟩
      have hdoubled : doubled? (c :: d :: rest) = doubled? (d :: rest) := if_neg hsame
      have hcd : Before c d :=
        Nat.lt_of_le_of_ne (hfirst d List.mem_cons_self) fun h => hsame (rank_injective h)
      have hbefore : ∀ k ∈ d :: rest, Before c k := by
        intro k hk
        rcases List.mem_cons.mp hk with rfl | hk
        · exact hcd
        · exact Nat.lt_of_lt_of_le hcd ((List.pairwise_cons.mp hrest).1 k hk)
      rw [hdoubled]
      rcases ih hrest with ⟨hnone, hordered⟩ | ⟨k, hsome, hrepeated⟩
      · exact Or.inl ⟨hnone, List.pairwise_cons.mpr ⟨hbefore, hordered⟩⟩
      · exact Or.inr ⟨k, hsome, hrepeated.cons hbefore⟩

/-- Whatever sorts it, a list that is not empty is put in order by sorting it, unless two neighbours
are the same then; the first two are what it is refused for. -/
theorem distinct_of_sorted {listed sorted : List Currency} (hlisted : listed ≠ [])
    (hperm : sorted.Perm listed) (hsorted : sorted.Pairwise fun c d => c.rank ≤ d.rank) :
    distinct listed = compared sorted := by
  rw [compared]
  rcases doubled?_cases hsorted with ⟨hnone, hordered⟩ | ⟨c, hsome, hrepeated⟩
  · rw [hnone]
    exact distinct_eq_ok_iff.mpr ⟨hlisted, hperm, hordered⟩
  · rw [hsome]
    have hfirst : FirstRepeated listed c := by
      simpa only [FirstRepeated, hperm.count_eq] using hrepeated
    rcases distinct_cases listed with ⟨hempty, -⟩ | ⟨d, hd, hdistinct⟩ |
      ⟨others, -, hothers, hordered, -⟩
    · exact absurd hempty hlisted
    · rw [hdistinct, hd.unique hfirst]
    · exact absurd (hothers.nodup (hordered.imp Before.ne)) hfirst.not_nodup

end Currency

/-! ## Opening an account in listed currencies -/

theorem Money.toString_zero : toString Money.zero = "0.00" := by
  decide

namespace Account

/-- An account has been opened in the listed currencies: it has a balance of its own in each of
them, in order, at zero and at the first version. -/
structure OpenedIn (a : Account) (listed : List Currency) : Prop where
  ordered : (a.balances.map Balance.currency).Pairwise Currency.Before
  listed : (a.balances.map Balance.currency).Perm listed
  owned : ∀ b ∈ a.balances, b.accountId = a.id
  fresh : ∀ b ∈ a.balances, toString b.available = "0.00" ∧ b.version = 1

/-- What opening an account comes to is told by its list of currencies: the account is refused for
an empty list and for the first repeated currency, and for nothing else. -/
def OpensAsListed (listed : List Currency) : Except Refusal Account → Prop
  | .ok a => listed ≠ [] ∧ listed.Nodup ∧ a.OpenedIn listed
  | .error r => (listed = [] ∧ r = .noCurrencies) ∨
      ∃ c, Currency.FirstRepeated listed c ∧ r = .duplicateCurrency c

theorem opening_as_listed (customer : CustomerId) (country : CountryCode) (listed : List Currency)
    (now : Timestamp) (draw : Draw) :
    OpensAsListed listed (opening customer country listed now draw) := by
  rcases Currency.distinct_cases listed with ⟨hempty, hdistinct⟩ | ⟨c, hrepeated, hdistinct⟩ |
    ⟨currencies, hsome, hperm, hordered, hdistinct⟩
  · rw [opening, hdistinct]
    exact Or.inl ⟨hempty, rfl⟩
  · rw [opening, hdistinct]
    exact Or.inr ⟨c, hrepeated, rfl⟩
  · rw [opening, hdistinct]
    have hcurrencies : (currencies.map fun c =>
        Balance.opened (draw.balance c) draw.account c now).map Balance.currency = currencies := by
      rw [List.map_map]
      exact List.map_id' _
    refine ⟨hsome, hperm.nodup (hordered.imp Currency.Before.ne), ?_, ?_, fun b hb => ?_,
      fun b hb => ?_⟩
    · rw [hcurrencies]
      exact hordered
    · rw [hcurrencies]
      exact hperm
    · obtain ⟨c, -, rfl⟩ := List.mem_map.mp hb
      rfl
    · obtain ⟨c, -, rfl⟩ := List.mem_map.mp hb
      exact ⟨Money.toString_zero, rfl⟩

end Account

end KeyedLedger
