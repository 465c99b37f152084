import SettlementOS.Analysis.Rounding

/-!
# Whom the rounding of a quote favours

Every quote is meant to round in the platform's favour. The fee does not: it is rounded down, and
what it drops is converted and promised to the recipient.
-/

set_option autoImplicit false

namespace SettlementOS.Results

open SettlementOS.Model Analysis

/-- Neither the quote nor the bridged route promises more than fee and spread leave. -/
def InPlatformsFavour (amountMinor mid slip sourceDecimals destDecimals promised bridged : ℕ) :
    Prop :=
  (promised : ℚ) ≤ exactValue amountMinor mid (fxSpreadBps + slip) sourceDecimals destDecimals ∧
    (bridged : ℚ) ≤ exactValue amountMinor mid (fxSpreadBps + slip + bridgeFeeBps) sourceDecimals
      destDecimals

variable {amountMinor mid slip sourceDecimals destDecimals bridged : ℕ} {source dest : String}
  {fx : FxQuote}

/-- **Whom the rounding favours.** It is the platform exactly when the fraction of a unit that the
fee drops carries neither of the two amounts over its next whole unit. -/
theorem in_platforms_favour_iff
    (hterms : TermsOf amountMinor source dest mid slip sourceDecimals destDecimals)
    (hquote : quoteFx amountMinor source dest = .ok fx)
    (hbridged : bridgedAmount fx amountMinor source dest = .ok bridged) :
    InPlatformsFavour amountMinor mid slip sourceDecimals destDecimals fx.destinationAmount
        bridged ↔
      ¬CarriesOver amountMinor mid (fxSpreadBps + slip) sourceDecimals destDecimals ∧
        ¬CarriesOver amountMinor mid (fxSpreadBps + slip + bridgeFeeBps) sourceDecimals
          destDecimals := by
  have hslip := hterms.slip_bounds.2
  have hbps : fxSpreadBps + slip + bridgeFeeBps ≤ bpsScale := by
    unfold fxSpreadBps bridgeFeeBps bpsScale
    omega
  obtain rfl := Except.ok.inj ((quoteFx_eq hterms).symm.trans hquote)
  obtain rfl := Except.ok.inj ((bridgedAmount_eq hterms).symm.trans hbridged)
  exact and_congr (converted_le_exact_iff (Nat.le_trans (Nat.le_add_right _ _) hbps))
    (converted_le_exact_iff hbps)

/-- Nine dollars and ninety-nine cents, to yen: no fee at all, and a yen too many. -/
theorem rounding_favours_recipient :
    ¬∀ (amountMinor mid slip sourceDecimals destDecimals bridged : ℕ) (source dest : String)
      (fx : FxQuote), TermsOf amountMinor source dest mid slip sourceDecimals destDecimals →
        quoteFx amountMinor source dest = .ok fx →
          bridgedAmount fx amountMinor source dest = .ok bridged →
            InPlatformsFavour amountMinor mid slip sourceDecimals destDecimals
              fx.destinationAmount bridged := by
  intro h
  have hterms : TermsOf 999 "USD" "JPY" (1572 * 10 ^ 17) 1 2 0 :=
    ⟨rfl, ⟨999, rfl, rfl⟩, rfl, rfl⟩
  have hfavour := (h 999 _ 1 2 0 _ "USD" "JPY" _ hterms (quoteFx_eq hterms)
    (bridgedAmount_eq hterms)).1
  have hpromised : (quoteOfTerms 999 (1572 * 10 ^ 17) 1 2 0).destinationAmount = 1567 := by
    decide +kernel
  rw [hpromised] at hfavour
  norm_num [exactValue, minorScale, platformFeeBps, bpsScale, fxSpreadBps, rateScale,
    rateDecimals] at hfavour

/-- A thousand dollars to yen: the fee is whole, and the platform is favoured. -/
theorem in_platforms_favour_whole_fee : ∃ fx bridged, quoteFx 100000 "USD" "JPY" = .ok fx ∧
    InPlatformsFavour 100000 (1572 * 10 ^ 17) 1 2 0 fx.destinationAmount bridged := by
  have hterms : TermsOf 100000 "USD" "JPY" (1572 * 10 ^ 17) 1 2 0 :=
    ⟨rfl, ⟨100000, rfl, rfl⟩, rfl, rfl⟩
  exact ⟨_, _, quoteFx_eq hterms, (in_platforms_favour_iff hterms (quoteFx_eq hterms)
    (bridgedAmount_eq hterms)).2 ⟨not_carriesOver_of_whole_fee (by decide),
      not_carriesOver_of_whole_fee (by decide)⟩⟩

end SettlementOS.Results
