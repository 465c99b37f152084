import SettlementOS.Analysis.Conversions

/-!
# No arbitrage

However many times an amount is converted, and through whichever currencies: back in its own
currency it is no more than it was.
-/

set_option autoImplicit false

namespace SettlementOS.Results

open SettlementOS.Model Analysis

/-- An amount of one currency is converted, quote after quote, each at what the last one gave. -/
inductive Converts (currency : String) (amountMinor : ℕ) : String → ℕ → Prop where
  | start : Converts currency amountMinor currency amountMinor
  | quote {source dest : String} {amount : ℕ} {fx : FxQuote}
      (h : Converts currency amountMinor source amount)
      (hquote : quoteFx amount source dest = .ok fx) :
      Converts currency amountMinor dest fx.destinationAmount

/-- No conversions gain anything in worth. -/
theorem worth_of_converts {currency dest : String} {amountMinor amount : ℕ}
    (h : Converts currency amountMinor dest amount) :
    amount * worth dest ≤ amountMinor * worth currency := by
  induction h with
  | start => exact Nat.le_refl _
  | quote _ hquote ih => exact Nat.le_trans (worth_of_quote hquote) ih

/-- **No arbitrage.** A cycle of quotes ends with at most what it began with. -/
theorem no_arbitrage {currency : String} {amountMinor amount : ℕ}
    (h : Converts currency amountMinor currency amount) : amount ≤ amountMinor :=
  Nat.le_of_mul_le_mul_right (worth_of_converts h) (worth_pos currency)

/-- A thousand dollars, to yen and to Singapore dollars and back. -/
theorem no_arbitrage_triangle : Converts "USD" 100000 "USD" 99077 ∧ 99077 ≤ 100000 := by
  have hyen : ∃ fx, quoteFx 100000 "USD" "JPY" = .ok fx ∧ fx.destinationAmount = 156713 :=
    ⟨_, rfl, by decide +kernel⟩
  have hsgd : ∃ fx, quoteFx 156713 "JPY" "SGD" = .ok fx ∧ fx.destinationAmount = 134170 :=
    ⟨_, rfl, by decide +kernel⟩
  have husd : ∃ fx, quoteFx 134170 "SGD" "USD" = .ok fx ∧ fx.destinationAmount = 99077 :=
    ⟨_, rfl, by decide +kernel⟩
  obtain ⟨fx, hyen, hamount⟩ := hyen
  obtain ⟨fx', hsgd, hamount'⟩ := hsgd
  obtain ⟨fx'', husd, hamount''⟩ := husd
  rw [← hamount] at hsgd
  rw [← hamount'] at husd
  have hcycle := ((Converts.start.quote hyen).quote hsgd).quote husd
  rw [hamount''] at hcycle
  exact ⟨hcycle, no_arbitrage hcycle⟩

end SettlementOS.Results
