import SettlementOS.Analysis.Quotes
import SettlementOS.Model.Units

/-!
# Amounts that can be settled

A conversion grows with the amount and shrinks with the fees, so which amounts come out positive
and with at most fifteen digits is decided at the ends: one and two minor units below, the
largest amount of the corridor above.
-/

set_option autoImplicit false

namespace SettlementOS.Analysis

open SettlementOS.Computation SettlementOS.Model Program

variable {amountMinor mid slip bps sourceDecimals destDecimals : ℕ} {source dest : String}

/-! ## Monotonicity -/

/-- A larger amount is worth no less. -/
theorem converted_mono {amount amount' : ℕ} (h : amount ≤ amount') :
    converted amount mid bps sourceDecimals destDecimals ≤
      converted amount' mid bps sourceDecimals destDecimals := by
  have hfee : amount - amount * platformFeeBps / bpsScale ≤
      amount' - amount' * platformFeeBps / bpsScale := by
    unfold platformFeeBps bpsScale
    omega
  unfold converted
  gcongr

/-- A larger fee leaves no more. -/
theorem converted_anti {bps' : ℕ} (h : bps ≤ bps') :
    converted amountMinor mid bps' sourceDecimals destDecimals ≤
      converted amountMinor mid bps sourceDecimals destDecimals := by
  unfold converted applyBps
  gcongr

/-! ## From below -/

/-- A minor unit of the source is worth more than one of the destination. -/
def Gains (mid sourceDecimals destDecimals : ℕ) : Prop :=
  rateScale * 10 ^ sourceDecimals < mid * 10 ^ destDecimals

instance (mid sourceDecimals destDecimals : ℕ) :
    Decidable (Gains mid sourceDecimals destDecimals) :=
  inferInstanceAs (Decidable (_ < _))

/-- Two minor units are worth something in every corridor. -/
theorem corridors_two : ∀ c ∈ corridors,
    0 < converted 2 c.mid 40 c.sourceDecimals c.destDecimals := by
  decide +kernel

/-- One minor unit is worth something exactly in the corridors that gain. -/
theorem corridors_one : ∀ c ∈ corridors, if Gains c.mid c.sourceDecimals c.destDecimals
    then 0 < converted 1 c.mid 40 c.sourceDecimals c.destDecimals
    else converted 1 c.mid 21 c.sourceDecimals c.destDecimals = 0 := by
  decide +kernel

/-- Something comes out, unless it is a single minor unit on a corridor that does not gain. -/
theorem converted_pos_iff
    (hc : ⟨source, dest, mid, sourceDecimals, destDecimals⟩ ∈ corridors)
    (hpos : 0 < amountMinor) (hlow : 21 ≤ bps) (hhigh : bps ≤ 40) :
    0 < converted amountMinor mid bps sourceDecimals destDecimals ↔
      (amountMinor = 1 → Gains mid sourceDecimals destDecimals) := by
  have hone := corridors_one _ hc
  by_cases h1 : amountMinor = 1
  · subst h1
    by_cases hgains : Gains mid sourceDecimals destDecimals
    · rw [if_pos hgains] at hone
      exact ⟨fun _ _ => hgains, fun _ => Nat.lt_of_lt_of_le hone (converted_anti hhigh)⟩
    · rw [if_neg hgains] at hone
      have hzero : converted 1 mid bps sourceDecimals destDecimals ≤ 0 :=
        Nat.le_trans (converted_anti hlow) (Nat.le_of_eq hone)
      exact ⟨fun h => absurd h (Nat.not_lt.mpr hzero), fun h => absurd (h rfl) hgains⟩
  · have htwo := corridors_two _ hc
    refine ⟨fun _ h => absurd h h1, fun _ => ?_⟩
    calc 0 < converted 2 mid 40 sourceDecimals destDecimals := htwo
      _ ≤ converted 2 mid bps sourceDecimals destDecimals := converted_anti hhigh
      _ ≤ converted amountMinor mid bps sourceDecimals destDecimals :=
        converted_mono (by omega)

/-! ## From above -/

/-- The largest amount of a corridor that comes out with fifteen digits. Where there is none, any
amount with fifteen digits does. -/
def largestAmount (source dest : String) : ℕ :=
  if source = "USD" ∧ dest = "JPY" then 639005604221008
  else if source = "USD" ∧ dest = "SGD" then 74408652580401850
  else if source = "SGD" ∧ dest = "JPY" then 862690492816407
  else 10 ^ 17

/-- The most there may be of a currency. -/
def capacity (decimals : ℕ) : ℕ := 10 ^ (maxIntegerDigits + decimals)

/-- Below the last tier any amount comes out with fifteen digits. -/
theorem corridors_small : ∀ c ∈ corridors,
    converted (10 ^ 10) c.mid 0 c.sourceDecimals c.destDecimals < capacity c.destDecimals ∧
      10 ^ 10 ≤ largestAmount c.source c.dest := by
  decide +kernel

/-- In the last tier it is the largest amount that does. -/
theorem corridors_large : ∀ c ∈ corridors,
    converted (min (largestAmount c.source c.dest) (capacity c.sourceDecimals - 1)) c.mid 35
        c.sourceDecimals c.destDecimals < capacity c.destDecimals ∧
      (largestAmount c.source c.dest + 1 < capacity c.sourceDecimals →
        capacity c.destDecimals ≤ converted (largestAmount c.source c.dest + 1) c.mid 35
          c.sourceDecimals c.destDecimals) := by
  decide +kernel

/-- What is below the last tier is small. -/
theorem small_of_tier {usd : ℕ} (h : usdEquivalent amountMinor source = .ok usd)
    (hd : currencyDecimals source = .ok sourceDecimals) (hsmall : usd ≤ 50000000) :
    amountMinor ≤ 10 ^ 10 := by
  rcases currency_cases hd with ⟨rfl, -⟩ | ⟨rfl, -⟩ | ⟨rfl, -⟩
  · obtain rfl : amountMinor = usd := Except.ok.inj h
    omega
  · obtain rfl : amountMinor * 6361323155216285 * 10 ^ 2 / (10 ^ 18 * 10 ^ 0) = usd :=
      Except.ok.inj h
    omega
  · obtain rfl : amountMinor * 740740740740740741 * 10 ^ 2 / (10 ^ 18 * 10 ^ 2) = usd :=
      Except.ok.inj h
    omega

/-- The last tier, or a small amount. -/
theorem TermsOf.tier (h : TermsOf amountMinor source dest mid slip sourceDecimals destDecimals) :
    slip = 15 ∨ amountMinor ≤ 10 ^ 10 := by
  obtain ⟨usd, husd, rfl⟩ := h.slip
  by_cases hsmall : usd ≤ 50000000
  · exact .inr (small_of_tier husd h.sourceDecimals hsmall)
  · left
    unfold slippageBps
    rw [if_neg (by omega), if_neg (by omega), if_neg hsmall]

/-- What comes out has fifteen digits, up to the largest amount. -/
theorem converted_lt_iff
    (hterms : TermsOf amountMinor source dest mid slip sourceDecimals destDecimals)
    (hmax : amountMinor < capacity sourceDecimals) :
    converted amountMinor mid (fxSpreadBps + slip) sourceDecimals destDecimals <
        capacity destDecimals ↔ amountMinor ≤ largestAmount source dest := by
  rcases hterms.tier with rfl | hsmall
  · obtain ⟨hlargest, hmore⟩ := corridors_large _ hterms.corridor
    constructor
    · intro h
      by_contra hle
      have hsucc : largestAmount source dest + 1 ≤ amountMinor := Nat.lt_of_not_le hle
      have hover := hmore (Nat.lt_of_le_of_lt hsucc hmax)
      exact absurd h (Nat.not_lt.mpr (Nat.le_trans hover (converted_mono hsucc)))
    · intro hle
      exact Nat.lt_of_le_of_lt (converted_mono (Nat.le_min.mpr ⟨hle, Nat.le_sub_one_of_lt hmax⟩))
        hlargest
  · obtain ⟨hlt, hle⟩ := corridors_small _ hterms.corridor
    refine ⟨fun _ => Nat.le_trans hsmall hle, fun _ => ?_⟩
    calc converted amountMinor mid (fxSpreadBps + slip) sourceDecimals destDecimals
        ≤ converted (10 ^ 10) mid (fxSpreadBps + slip) sourceDecimals destDecimals :=
          converted_mono hsmall
      _ ≤ converted (10 ^ 10) mid 0 sourceDecimals destDecimals :=
          converted_anti (Nat.zero_le _)
      _ < capacity destDecimals := hlt

end SettlementOS.Analysis
