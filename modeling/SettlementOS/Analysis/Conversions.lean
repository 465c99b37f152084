import Mathlib.Tactic.GCongr
import Mathlib.Tactic.Positivity
import Mathlib.Tactic.Ring
import SettlementOS.Model.Fx

/-!
# Conversions

What a quote works out, as one formula, and what it is bounded by: every currency has a worth
that no conversion raises.
-/

set_option autoImplicit false

namespace SettlementOS.Analysis

open SettlementOS.Model

variable {amountMinor mid slip sourceDecimals destDecimals : ℕ} {source dest : String}
  {fx : FxQuote}

/-! ## The terms of a quote -/

/-- What a quote reads off its tables. -/
structure TermsOf (amountMinor : ℕ) (source dest : String)
    (mid slip sourceDecimals destDecimals : ℕ) : Prop where
  mid : midRate source dest = .ok mid
  slip : ∃ usd, usdEquivalent amountMinor source = .ok usd ∧ slip = slippageBps usd
  sourceDecimals : currencyDecimals source = .ok sourceDecimals
  destDecimals : currencyDecimals dest = .ok destDecimals

/-- What is left of an amount at a rate, after the fee. -/
def converted (amountMinor mid bps sourceDecimals destDecimals : ℕ) : ℕ :=
  (amountMinor - amountMinor * platformFeeBps / bpsScale) * applyBps mid bps *
    10 ^ destDecimals / (rateScale * 10 ^ sourceDecimals)

/-- A conversion is a product by a quotient, rounded down. -/
theorem convert_eq (hs : currencyDecimals source = .ok sourceDecimals)
    (hd : currencyDecimals dest = .ok destDecimals) (amountMinor rate : ℕ) :
    convert amountMinor rate source dest =
      .ok (amountMinor * rate * 10 ^ destDecimals / (rateScale * 10 ^ sourceDecimals)) := by
  unfold convert
  rw [hs, hd]
  rfl

/-- What a quote answers. -/
def quoteOfTerms (amountMinor mid slip sourceDecimals destDecimals : ℕ) : FxQuote where
  midRate := mid
  effectiveRate := applyBps mid (fxSpreadBps + slip)
  spreadBps := fxSpreadBps
  slippageBps := slip
  platformFeeBps := platformFeeBps
  destinationAmount := converted amountMinor mid (fxSpreadBps + slip) sourceDecimals destDecimals
  platformFee := amountMinor * platformFeeBps / bpsScale

/-- A quote, from its terms. -/
theorem quoteFx_eq (h : TermsOf amountMinor source dest mid slip sourceDecimals destDecimals) :
    quoteFx amountMinor source dest =
      .ok (quoteOfTerms amountMinor mid slip sourceDecimals destDecimals) := by
  obtain ⟨usd, husd, rfl⟩ := h.slip
  unfold quoteFx
  simp only [h.mid, husd, bind, Except.bind, convert_eq h.sourceDecimals h.destDecimals]
  rfl

/-- The terms of a quote. -/
theorem terms_of_quote (h : quoteFx amountMinor source dest = .ok fx) :
    ∃ mid slip sourceDecimals destDecimals,
      TermsOf amountMinor source dest mid slip sourceDecimals destDecimals ∧
        fx = quoteOfTerms amountMinor mid slip sourceDecimals destDecimals := by
  have hquote := h
  unfold quoteFx at h
  simp only [bind, Except.bind] at h
  split at h
  · cases h
  · rename_i mid hmid
    split at h
    · cases h
    · rename_i usd husd
      split at h
      · cases h
      · rename_i amount hconvert
        unfold convert at hconvert
        simp only [bind, Except.bind] at hconvert
        split at hconvert
        · cases hconvert
        · rename_i sd hsd
          split at hconvert
          · cases hconvert
          · rename_i dd hdd
            have hterms : TermsOf amountMinor source dest mid (slippageBps usd) sd dd :=
              ⟨hmid, ⟨usd, husd, rfl⟩, hsd, hdd⟩
            rw [quoteFx_eq hterms] at hquote
            exact ⟨mid, slippageBps usd, sd, dd, hterms, (Except.ok.inj hquote).symm⟩

/-- What the bridge leaves, its own fee with the others (`lib/routing.ts`). -/
def bridgedAmount (fx : FxQuote) (amountMinor : ℕ) (source dest : String) : Except Err ℕ :=
  convert (amountMinor - fx.platformFee)
    (applyBps fx.midRate (fxSpreadBps + fx.slippageBps + bridgeFeeBps)) source dest

/-- What is bridged is converted less the spread, the slippage and the bridge's fee. -/
theorem bridgedAmount_eq
    (h : TermsOf amountMinor source dest mid slip sourceDecimals destDecimals) :
    bridgedAmount (quoteOfTerms amountMinor mid slip sourceDecimals destDecimals) amountMinor
      source dest = .ok (converted amountMinor mid (fxSpreadBps + slip + bridgeFeeBps)
        sourceDecimals destDecimals) :=
  convert_eq h.sourceDecimals h.destDecimals _ _

/-- The slippage is that of a tier. -/
theorem TermsOf.slip_bounds
    (h : TermsOf amountMinor source dest mid slip sourceDecimals destDecimals) :
    1 ≤ slip ∧ slip ≤ 15 := by
  obtain ⟨usd, -, rfl⟩ := h.slip
  unfold slippageBps
  split_ifs <;> decide

/-! ## Corridors -/

/-- Two currencies with a rate between them. -/
structure Corridor where
  source : String
  dest : String
  mid : ℕ
  sourceDecimals : ℕ
  destDecimals : ℕ
  deriving DecidableEq, Repr

/-- The corridors there are, from a currency to itself included. -/
def corridors : List Corridor :=
  [⟨"USD", "USD", 10 ^ 18, 2, 2⟩, ⟨"JPY", "JPY", 10 ^ 18, 0, 0⟩, ⟨"SGD", "SGD", 10 ^ 18, 2, 2⟩,
   ⟨"USD", "JPY", 157200000000000000000, 2, 0⟩, ⟨"JPY", "USD", 6361323155216285, 0, 2⟩,
   ⟨"USD", "SGD", 1350000000000000000, 2, 2⟩, ⟨"SGD", "USD", 740740740740740741, 2, 2⟩,
   ⟨"SGD", "JPY", 116440000000000000000, 2, 0⟩, ⟨"JPY", "SGD", 8588114050154586, 0, 2⟩]

/-- There are three currencies. -/
theorem currency_cases {currency : String} {decimals : ℕ}
    (h : currencyDecimals currency = .ok decimals) :
    (currency = "USD" ∧ decimals = 2) ∨ (currency = "JPY" ∧ decimals = 0) ∨
      (currency = "SGD" ∧ decimals = 2) := by
  unfold currencyDecimals currencyDecimalsTable at h
  by_cases husd : currency = "USD"
  · rw [if_pos husd] at h
    exact .inl ⟨husd, (Except.ok.inj h).symm⟩
  by_cases hjpy : currency = "JPY"
  · rw [if_neg husd, if_pos hjpy] at h
    exact .inr (.inl ⟨hjpy, (Except.ok.inj h).symm⟩)
  by_cases hsgd : currency = "SGD"
  · rw [if_neg husd, if_neg hjpy, if_pos hsgd] at h
    exact .inr (.inr ⟨hsgd, (Except.ok.inj h).symm⟩)
  · rw [if_neg husd, if_neg hjpy, if_neg hsgd] at h
    cases h

/-- Every quote is on one of the corridors. -/
theorem TermsOf.corridor
    (h : TermsOf amountMinor source dest mid slip sourceDecimals destDecimals) :
    ⟨source, dest, mid, sourceDecimals, destDecimals⟩ ∈ corridors := by
  have hmid := h.mid
  rcases currency_cases h.sourceDecimals with ⟨rfl, rfl⟩ | ⟨rfl, rfl⟩ | ⟨rfl, rfl⟩ <;>
    rcases currency_cases h.destDecimals with ⟨rfl, rfl⟩ | ⟨rfl, rfl⟩ | ⟨rfl, rfl⟩ <;>
    cases hmid <;> decide +kernel

/-! ## Worth -/

/-- What a minor unit of a currency is worth, in ten-thousandths of a yen. -/
def worth (currency : String) : ℕ :=
  if currency = "USD" then 15720 else if currency = "SGD" then 11644 else 10000

/-- A unit of any currency is worth something. -/
theorem worth_pos (currency : String) : 0 < worth currency := by
  unfold worth
  split
  · decide
  · split <;> decide

/-- At a rate less the spread no minor unit gains in worth. -/
theorem corridors_lose : ∀ c ∈ corridors,
    c.mid * (bpsScale - fxSpreadBps) * 10 ^ c.destDecimals * worth c.dest ≤
      rateScale * 10 ^ c.sourceDecimals * bpsScale * worth c.source := by
  decide +kernel

/-- A fee leaves no more of a rate than its share. -/
theorem applyBps_mul_le (rate bps : ℕ) :
    applyBps rate bps * bpsScale ≤ rate * (bpsScale - bps) :=
  Nat.div_mul_le_self _ _

/-- What comes out is at most the amount at the worsened rate. -/
theorem converted_mul_le (amountMinor mid bps sourceDecimals destDecimals : ℕ) :
    converted amountMinor mid bps sourceDecimals destDecimals *
        (rateScale * 10 ^ sourceDecimals * bpsScale) ≤
      amountMinor * (mid * (bpsScale - bps) * 10 ^ destDecimals) := by
  calc converted amountMinor mid bps sourceDecimals destDecimals *
        (rateScale * 10 ^ sourceDecimals * bpsScale)
      = converted amountMinor mid bps sourceDecimals destDecimals *
          (rateScale * 10 ^ sourceDecimals) * bpsScale := (Nat.mul_assoc _ _ _).symm
    _ ≤ (amountMinor - amountMinor * platformFeeBps / bpsScale) * applyBps mid bps *
          10 ^ destDecimals * bpsScale := Nat.mul_le_mul_right _ (Nat.div_mul_le_self _ _)
    _ ≤ amountMinor * applyBps mid bps * 10 ^ destDecimals * bpsScale :=
      Nat.mul_le_mul_right _ (Nat.mul_le_mul_right _ (Nat.mul_le_mul_right _ (Nat.sub_le _ _)))
    _ = amountMinor * (applyBps mid bps * bpsScale * 10 ^ destDecimals) := by ring
    _ ≤ amountMinor * (mid * (bpsScale - bps) * 10 ^ destDecimals) :=
      Nat.mul_le_mul_left _ (Nat.mul_le_mul_right _ (applyBps_mul_le mid bps))

/-- **A conversion gains nothing in worth.** -/
theorem worth_of_quote (h : quoteFx amountMinor source dest = .ok fx) :
    fx.destinationAmount * worth dest ≤ amountMinor * worth source := by
  obtain ⟨mid, slip, sd, dd, hterms, rfl⟩ := terms_of_quote h
  have hlose := corridors_lose _ hterms.corridor
  have hpos : 0 < rateScale * 10 ^ sd * bpsScale := by
    unfold rateScale bpsScale
    positivity
  have hbps : bpsScale - (fxSpreadBps + slip) ≤ bpsScale - fxSpreadBps := by omega
  refine Nat.le_of_mul_le_mul_right ?_ hpos
  calc converted amountMinor mid (fxSpreadBps + slip) sd dd * worth dest *
        (rateScale * 10 ^ sd * bpsScale)
      = converted amountMinor mid (fxSpreadBps + slip) sd dd *
          (rateScale * 10 ^ sd * bpsScale) * worth dest := by ring
    _ ≤ amountMinor * (mid * (bpsScale - (fxSpreadBps + slip)) * 10 ^ dd) * worth dest :=
      Nat.mul_le_mul_right _ (converted_mul_le ..)
    _ ≤ amountMinor * (mid * (bpsScale - fxSpreadBps) * 10 ^ dd) * worth dest := by gcongr
    _ = amountMinor * (mid * (bpsScale - fxSpreadBps) * 10 ^ dd * worth dest) := by ring
    _ ≤ amountMinor * (rateScale * 10 ^ sd * bpsScale * worth source) :=
      Nat.mul_le_mul_left _ hlose
    _ = amountMinor * worth source * (rateScale * 10 ^ sd * bpsScale) := by ring

end SettlementOS.Analysis
