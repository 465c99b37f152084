import SettlementOS.Analysis.Ranges
import SettlementOS.Results.Terminal

/-!
# Which payments can be settled at what they are quoted

An accepted amount is positive and has at most fifteen digits. Its conversion need not be: a
single minor unit can come out as nothing, and an amount near the limit as one that is over it.
-/

set_option autoImplicit false

namespace SettlementOS.Results

open SettlementOS.Computation Model Program Analysis

/-- A destination amount is read at its token's decimals, and is not nothing. -/
def Settleable (decimals : ℕ) (amount : String) : Prop :=
  ∃ units, destinationUnits amount decimals = .ok units ∧ 0 < units

/-- Everything that quoting the payment may write can be settled. -/
def QuotesSettle (env : Env) (p : Payment) (decimals : ℕ) : Prop :=
  ∀ routes, MayQuote env p routes →
    ∀ route ∈ routes, Settleable decimals route.estimatedDestinationAmount

/-- An amount of which something comes out on a corridor, and not too much. -/
structure InRange (amountMinor : ℕ) (source dest : String)
    (mid sourceDecimals destDecimals : ℕ) : Prop where
  notLost : amountMinor = 1 → Gains mid sourceDecimals destDecimals
  notOver : amountMinor ≤ largestAmount source dest

variable {env : Env} {p : Payment} {raw : String}
  {amountMinor mid slip sourceDecimals destDecimals decimals : ℕ}

/-- A formatted amount settles where the token has its decimals and there is room for it. -/
theorem settleable_iff {units : ℕ} : Settleable decimals (formatScaledUnits units destDecimals) ↔
    destDecimals ≤ decimals ∧ 0 < units ∧ units < capacity destDecimals := by
  have hfrac := Decimal.length_frac_fixed units destDecimals
  have hscaled := Decimal.scaled_fixed units destDecimals
  have hpow : ∀ k, 0 < 10 ^ k := fun k => Nat.pow_pos (by decide)
  constructor
  · rintro ⟨read, hread, hpos⟩
    obtain ⟨x, hx, rfl⟩ := parse_eq_ok.mp hread
    obtain rfl := hx.writes.unique (formatScaledUnits_writes units destDecimals)
    have hle : destDecimals ≤ decimals := hfrac ▸ hx.frac
    have hfine := Decimal.scaled_add (Nat.le_of_eq hfrac) (decimals - destDecimals)
    rw [Nat.add_sub_cancel' hle, hscaled] at hfine
    rw [hfine] at hpos
    exact ⟨hle, Nat.pos_of_mul_pos_right hpos,
      (Decimal.length_whole_fixed_le_iff (by decide)).mp hx.whole⟩
  · rintro ⟨hle, hpos, hlt⟩
    have hfine := Decimal.scaled_add (Nat.le_of_eq hfrac) (decimals - destDecimals)
    rw [Nat.add_sub_cancel' hle, hscaled] at hfine
    have hreads := formatScaledUnits_readsAt hlt
    refine ⟨_, parse_eq_ok.mpr ⟨_, ⟨hreads.writes, hreads.whole, Nat.le_trans hreads.frac hle⟩,
      rfl⟩, ?_⟩
    rw [hfine]
    exact Nat.mul_pos hpos (hpow _)

/-- Both kinds of routes settle when the one without a bridge does. -/
theorem settleable_of_inRange
    (hterms : TermsOf amountMinor p.sourceCurrency p.destinationCurrency mid slip sourceDecimals
      destDecimals) (hparse : parseAmount p.amount p.sourceCurrency = .ok amountMinor)
    (hrange : InRange amountMinor p.sourceCurrency p.destinationCurrency mid sourceDecimals
      destDecimals) (hle : destDecimals ≤ decimals) : QuotesSettle env p decimals := by
  intro routes hroutes route hroute
  obtain ⟨hbridge, hamount⟩ := amounts_of_quote hroutes hparse hterms route hroute
  obtain ⟨hpos, hmax⟩ := parseAmount_bounds hparse hterms.sourceDecimals
  have hslip := hterms.slip_bounds
  have hbps : 21 ≤ fxSpreadBps + slip + route.bridgeFeeBps ∧
      fxSpreadBps + slip + route.bridgeFeeBps ≤ 40 := by
    unfold fxSpreadBps bridgeFeeBps at *
    omega
  have hsome := (converted_pos_iff hterms.corridor hpos hbps.1 hbps.2).mpr hrange.notLost
  have hfits := (converted_lt_iff hterms hmax).mpr hrange.notOver
  rw [hamount]
  exact settleable_iff.mpr
    ⟨hle, hsome, Nat.lt_of_le_of_lt (converted_anti (Nat.le_add_right _ _)) hfits⟩

/-- The route without a bridge settles only within the range. -/
theorem inRange_of_settleable
    (hterms : TermsOf amountMinor p.sourceCurrency p.destinationCurrency mid slip sourceDecimals
      destDecimals) (hparse : parseAmount p.amount p.sourceCurrency = .ok amountMinor)
    {source dest : NetworkInfo} (hsource : env.networkInfo p.sourceNetwork = .ok source)
    (hdest : env.networkInfo p.destinationNetwork = .ok dest)
    (h : QuotesSettle env p decimals) :
    destDecimals ≤ decimals ∧ InRange amountMinor p.sourceCurrency p.destinationCurrency mid
      sourceDecimals destDecimals := by
  obtain ⟨routes, hroutes, route, hroute, hbridge⟩ := exists_quote hparse hterms hsource hdest
  have hsettles := h routes hroutes route hroute
  rw [(amounts_of_quote hroutes hparse hterms route hroute).2, hbridge, settleable_iff] at hsettles
  obtain ⟨hle, hsome, hfits⟩ := hsettles
  obtain ⟨hpos, hmax⟩ := parseAmount_bounds hparse hterms.sourceDecimals
  have hslip := hterms.slip_bounds
  have hbps : 21 ≤ fxSpreadBps + slip + 0 ∧ fxSpreadBps + slip + 0 ≤ 40 := by
    unfold fxSpreadBps
    omega
  exact ⟨hle, (converted_pos_iff hterms.corridor hpos hbps.1 hbps.2).mp hsome,
    (converted_lt_iff hterms hmax).mp hfits⟩

/-- **Which payments can be settled at what they are quoted.** Exactly those in the range of
their corridor, in a token that counts at least the minor units of its currency. -/
theorem quotes_settle_iff (hcanonical : canonicalAmount raw p.sourceCurrency = .ok p.amount)
    (hamount : parseAmount raw p.sourceCurrency = .ok amountMinor)
    (hterms : TermsOf amountMinor p.sourceCurrency p.destinationCurrency mid slip sourceDecimals
      destDecimals)
    {source dest : NetworkInfo} (hsource : env.networkInfo p.sourceNetwork = .ok source)
    (hdest : env.networkInfo p.destinationNetwork = .ok dest) :
    QuotesSettle env p decimals ↔ destDecimals ≤ decimals ∧
      InRange amountMinor p.sourceCurrency p.destinationCurrency mid sourceDecimals
        destDecimals := by
  have hparse := parseAmount_canonical hamount hcanonical
  exact ⟨inRange_of_settleable hterms hparse hsource hdest,
    fun ⟨hle, hrange⟩ => settleable_of_inRange hterms hparse hrange hle⟩

/-! ## Samples -/

/-- The sample payment, of an amount of yen, to dollars. -/
def yenPayment (amount : String) : Payment :=
  { samplePayment.row with
    amount := amount, sourceCurrency := "JPY", destinationCurrency := "USD" }

/-- A yen is quoted at no dollars at all. -/
theorem one_yen_is_lost :
    ¬∀ (env : Env) (p : Payment) (raw : String) (amountMinor mid slip sourceDecimals destDecimals
      : ℕ) (asset : AssetInfo), canonicalAmount raw p.sourceCurrency = .ok p.amount →
        parseAmount raw p.sourceCurrency = .ok amountMinor →
          TermsOf amountMinor p.sourceCurrency p.destinationCurrency mid slip sourceDecimals
            destDecimals → assetForCurrency p.destinationCurrency = .ok asset →
              QuotesSettle env p asset.decimals := by
  intro h
  have hterms : TermsOf 1 "JPY" "USD" 6361323155216285 1 0 2 := ⟨rfl, ⟨0, rfl, rfl⟩, rfl, rfl⟩
  have hparse : parseAmount "1" "JPY" = .ok 1 := by decide +kernel
  have hcanonical : canonicalAmount "1" "JPY" = .ok "1" := by decide +kernel
  have hsettle := h sampleEnv (yenPayment "1") "1" 1 _ 1 0 2 _ hcanonical hparse hterms rfl
  have hrange := (inRange_of_settleable hterms hparse (p := yenPayment "1") rfl rfl hsettle).2
  exact absurd (hrange.notLost rfl) (by decide +kernel)

/-- A thousand yen is quoted at something that settles. -/
theorem quotes_settle_thousand_yen : QuotesSettle sampleEnv (yenPayment "1000") 6 := by
  have hterms : TermsOf 1000 "JPY" "USD" 6361323155216285 1 0 2 :=
    ⟨rfl, ⟨636, rfl, rfl⟩, rfl, rfl⟩
  have hparse : parseAmount "1000" "JPY" = .ok 1000 := by decide +kernel
  have hcanonical : canonicalAmount "1000" "JPY" = .ok "1000" := by decide +kernel
  exact (quotes_settle_iff (p := yenPayment "1000") hcanonical hparse hterms rfl rfl).mpr
    ⟨by decide, ⟨by decide, by decide +kernel⟩⟩

end SettlementOS.Results
