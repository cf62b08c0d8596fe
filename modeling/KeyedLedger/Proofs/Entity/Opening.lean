import Mathlib.Data.List.Nodup
import KeyedLedger.Entity.Account

/-! # Opening an account

An account that is opened is as the draw and the command have it: it has one balance in each listed
currency, at least one, and they differ in currency.
-/

namespace KeyedLedger

namespace Currency

theorem nodup_all : all.Nodup := by
  decide

theorem eq_of_distinct {listed currencies : List Currency} (h : distinct listed = .ok currencies) :
    currencies = all.filter fun c => listed.contains c := by
  rw [distinct] at h
  split at h
  · simp at h
  · split at h
    · simp at h
    · exact (Except.ok.inj h).symm

theorem nodup_of_distinct {listed currencies : List Currency}
    (h : distinct listed = .ok currencies) : currencies.Nodup := by
  rw [eq_of_distinct h]
  exact nodup_all.filter _

theorem ne_nil_of_distinct {listed currencies : List Currency}
    (h : distinct listed = .ok currencies) : currencies ≠ [] := by
  have hcurrencies := eq_of_distinct h
  cases listed with
  | nil => simp [distinct] at h
  | cons c rest =>
      refine List.ne_nil_of_mem (a := c) ?_
      rw [hcurrencies]
      exact List.mem_filter.mpr ⟨c.mem_all, by simp⟩

end Currency

namespace Account

theorem eq_of_opening {customer : CustomerId} {country : CountryCode} {listed : List Currency}
    {now : Timestamp} {draw : Draw} {a : Account}
    (h : opening customer country listed now draw = .ok a) :
    ∃ currencies, Currency.distinct listed = .ok currencies ∧ a = {
      id := draw.account
      customer := customer
      country := country
      balances := currencies.map fun c => Balance.opened (draw.balance c) draw.account c now
      createdAt := now
      updatedAt := now } := by
  rw [opening] at h
  cases hdistinct : Currency.distinct listed with
  | error r => simp [hdistinct, bind, Except.bind] at h
  | ok currencies =>
      rw [hdistinct] at h
      exact ⟨currencies, rfl, (Except.ok.inj h).symm⟩

/-- An account is opened unless no currency is listed or one is repeated. -/
theorem opening_eq (customer : CustomerId) (country : CountryCode) (listed : List Currency)
    (now : Timestamp) (draw : Draw) :
    opening customer country listed now draw =
      if listed = [] then .error .noCurrencies
      else match Currency.all.find? fun k => 1 < listed.count k with
        | some k => .error (.duplicateCurrency k)
        | none => .ok ⟨draw.account, customer, country,
            (Currency.all.filter fun k => k ∈ listed).map fun k =>
              Balance.opened (draw.balance k) draw.account k now, now, now⟩ := by
  rw [opening, Currency.distinct]
  by_cases hempty : listed = []
  · rw [if_pos hempty, if_pos (List.isEmpty_iff.mpr hempty)]
    rfl
  rw [if_neg hempty, if_neg fun h => hempty (List.isEmpty_iff.mp h)]
  cases Currency.all.find? fun k => 1 < listed.count k with
  | some k => rfl
  | none =>
      simp only [List.contains_eq_mem]
      rfl

end Account

end KeyedLedger
