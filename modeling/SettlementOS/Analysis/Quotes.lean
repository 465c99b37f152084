import SettlementOS.Analysis.Conversions
import SettlementOS.Computation.Outcomes
import SettlementOS.Program.Routing

/-!
# What quoting writes

The amount on a route is what its own fees leave of the payment's amount. The liquidity check has
no part in it: it may refuse to quote, and when a node does not answer it does not even do that.
-/

set_option autoImplicit false

namespace SettlementOS.Analysis

open SettlementOS.Computation Prog Model Program

variable {env : Env} {p : Payment} {α : Type} {amountMinor mid slip sourceDecimals destDecimals : ℕ}

/-- The row is this one whenever it is read; anything else may be answered anything. -/
def rowIs (p : Payment) : (o : Stmt) → sagaEffects.Answer o → Prop
  | .findPayment, r => ∀ row, r = .ok row → row = p
  | _, _ => True

/-- The routes a quote of the payment may come up with. -/
def MayQuote (env : Env) (p : Payment) (routes : List RouteOption) : Prop :=
  (quoteRoutes env).Yields (rowIs p) routes

/-- A statement yields what it is answered. -/
theorem call_yields {A : (o : Stmt) → sagaEffects.Answer o → Prop} {o : Stmt} {a : o.Result} :
    (call o).Yields A a ↔ A o (.ok a) := by
  simp only [call, Yields, yields_ofExcept]
  constructor
  · rintro ⟨r, hr, rfl⟩
    exact hr
  · intro h
    exact ⟨_, h, rfl⟩

/-- An outcome yields its value. -/
theorem lift_yields {A : (o : Stmt) → sagaEffects.Answer o → Prop} {x : Except Err α} {a : α} :
    (lift x).Yields A a ↔ x = .ok a := yields_ofExcept

/-! ## The amounts -/

/-- The amount of a route is what its own fees leave. -/
def AmountOf (amountMinor mid slip sourceDecimals destDecimals : ℕ) (route : RouteOption) : Prop :=
  route.estimatedDestinationAmount = formatScaledUnits
    (converted amountMinor mid (fxSpreadBps + slip + route.bridgeFeeBps) sourceDecimals
      destDecimals) destDecimals

/-- An amount is formatted at its currency's decimals. -/
theorem formatMinorUnits_eq {currency : String} {decimals : ℕ}
    (h : currencyDecimals currency = .ok decimals) (units : ℕ) :
    formatMinorUnits units currency = .ok (formatScaledUnits units decimals) := by
  unfold formatMinorUnits
  rw [h]
  rfl

/-- Whatever is quoted has its amounts from the formula. -/
theorem amounts_of_quote {routes : List RouteOption} (h : MayQuote env p routes)
    (hparse : parseAmount p.amount p.sourceCurrency = .ok amountMinor)
    (hterms : TermsOf amountMinor p.sourceCurrency p.destinationCurrency mid slip sourceDecimals
      destDecimals) :
    ∀ route ∈ routes, (route.bridgeFeeBps = 0 ∨ route.bridgeFeeBps = bridgeFeeBps) ∧
      AmountOf amountMinor mid slip sourceDecimals destDecimals route := by
  unfold MayQuote quoteRoutes at h
  simp only [bind_eq, yields_bind, lift_yields] at h
  obtain ⟨row, hrow, amount, hamount, source, -, dest, -, fx, hfx, fee, -, h⟩ := h
  obtain rfl := call_yields.mp hrow row rfl
  obtain rfl := Except.ok.inj (hamount.symm.trans hparse)
  obtain rfl := Except.ok.inj (hfx.symm.trans (quoteFx_eq hterms))
  have hformat := formatMinorUnits_eq hterms.destDecimals
  by_cases hnet : row.sourceNetwork = row.destinationNetwork
  · rw [if_pos hnet] at h
    simp only [yields_bind, lift_yields] at h
    obtain ⟨amount, hamount, liq, -, -, -, hroutes⟩ := h
    obtain rfl := Except.ok.inj ((hformat _).symm.trans hamount)
    obtain rfl : routes = _ := hroutes
    intro route hroute
    simp only [singleNetworkRoutes, List.mem_cons, List.not_mem_nil, or_false] at hroute
    rcases hroute with rfl | rfl
    · exact ⟨.inl rfl, rfl⟩
    · exact ⟨.inl rfl, rfl⟩
  · rw [if_neg hnet] at h
    simp only [yields_bind, lift_yields] at h
    obtain ⟨-, -, -, -, units, hunits, bridged, hbridged, fallback, hfallback, liq, -, liq', -,
      hroutes⟩ := h
    obtain rfl := Except.ok.inj ((bridgedAmount_eq hterms).symm.trans hunits)
    obtain rfl := Except.ok.inj ((hformat _).symm.trans hbridged)
    obtain rfl := Except.ok.inj ((hformat _).symm.trans hfallback)
    obtain rfl : routes = _ := hroutes
    intro route hroute
    simp only [crossNetworkRoutes, List.mem_cons, List.not_mem_nil, or_false] at hroute
    rcases hroute with rfl | rfl
    · exact ⟨.inr rfl, rfl⟩
    · exact ⟨.inl rfl, rfl⟩

/-! ## There are quotes -/

/-- A liquidity check that cannot be made says yes. -/
theorem liquidityCheck_yields (symbol : AssetSymbol) (network : Network) (needed : String) :
    (liquidityCheck env symbol network needed).Yields (rowIs p) ⟨true, false⟩ := by
  unfold liquidityCheck
  by_cases hready : env.isChainReady = true
  · rw [if_pos hready]
    refine yields_handle.mpr (.inr ?_)
    have hthrows : ∃ e, unreadableAmount e = false ∧
        (availableLiquidity env symbol network).Throws (rowIs p) e := by
      unfold availableLiquidity
      cases hnet : env.deployments.networks network with
      | none => exact ⟨_, rfl, rfl⟩
      | some net =>
        cases htoken : net.tokens symbol with
        | none =>
          refine ⟨.error s!"Token {symbol.name} not deployed on {network}", rfl, ?_⟩
          simp only [tokenOn, htoken]
          rfl
        | some token =>
          refine ⟨.node "", rfl, ?_⟩
          simp only [tokenOn, htoken]
          exact ⟨.error (.node ""), trivial, rfl⟩
    obtain ⟨e, hreadable, he⟩ := hthrows
    refine ⟨e, throws_bind_left he, ?_⟩
    rw [hreadable]
    rfl
  · rw [if_neg hready]
    rfl

/-- A currency that has decimals has an asset. -/
theorem exists_asset {currency : String} {decimals : ℕ}
    (h : currencyDecimals currency = .ok decimals) :
    ∃ asset, assetForCurrency currency = .ok asset := by
  rcases currency_cases h with ⟨rfl, -⟩ | ⟨rfl, -⟩ | ⟨rfl, -⟩ <;> exact ⟨_, rfl⟩

/-- Where the networks are known there is a quote, with a route that pays no bridge. -/
theorem exists_quote (hparse : parseAmount p.amount p.sourceCurrency = .ok amountMinor)
    (hterms : TermsOf amountMinor p.sourceCurrency p.destinationCurrency mid slip sourceDecimals
      destDecimals) {source dest : NetworkInfo}
    (hsource : env.networkInfo p.sourceNetwork = .ok source)
    (hdest : env.networkInfo p.destinationNetwork = .ok dest) :
    ∃ routes, MayQuote env p routes ∧ ∃ route ∈ routes, route.bridgeFeeBps = 0 := by
  obtain ⟨sourceAsset, hsourceAsset⟩ := exists_asset hterms.sourceDecimals
  obtain ⟨destAsset, hdestAsset⟩ := exists_asset hterms.destDecimals
  have hformat := formatMinorUnits_eq hterms.destDecimals
  have hfee := formatMinorUnits_eq hterms.sourceDecimals
  have hread : (call .findPayment).Yields (rowIs p) p := call_yields.mpr fun row hrow =>
    (Except.ok.inj hrow).symm
  let fx := quoteOfTerms amountMinor mid slip sourceDecimals destDecimals
  let common := routeCommon fx (formatScaledUnits fx.platformFee sourceDecimals)
    sourceAsset.symbol destAsset.symbol p.sourceNetwork p.destinationNetwork
  unfold MayQuote quoteRoutes
  simp only [bind_eq, yields_bind, lift_yields]
  by_cases hnet : p.sourceNetwork = p.destinationNetwork
  · refine ⟨singleNetworkRoutes p.id common (formatRate fx.effectiveRate)
      (formatScaledUnits fx.destinationAmount destDecimals) ⟨true, false⟩,
      ⟨p, hread, _, hparse, _, hsourceAsset, _, hdestAsset, _, quoteFx_eq hterms, _, hfee _, ?_⟩,
      _, List.mem_cons_self, rfl⟩
    rw [if_pos hnet]
    simp only [yields_bind, lift_yields]
    exact ⟨_, hformat _, _, liquidityCheck_yields .., _, hsource, rfl⟩
  · let bridged := converted amountMinor mid (fxSpreadBps + slip + bridgeFeeBps) sourceDecimals
      destDecimals
    refine ⟨crossNetworkRoutes p.id common
      (formatRate (applyBps fx.midRate (fxSpreadBps + slip + bridgeFeeBps)))
      (formatScaledUnits bridged destDecimals) (formatRate fx.effectiveRate)
      (formatScaledUnits fx.destinationAmount destDecimals) ⟨true, false⟩ ⟨true, false⟩,
      ⟨p, hread, _, hparse, _, hsourceAsset, _, hdestAsset, _, quoteFx_eq hterms, _, hfee _, ?_⟩,
      _, List.mem_cons_of_mem _ List.mem_cons_self, rfl⟩
    rw [if_neg hnet]
    simp only [yields_bind, lift_yields]
    exact ⟨_, hsource, _, hdest, _, bridgedAmount_eq hterms, _, hformat _, _, hformat _, _,
      liquidityCheck_yields .., _, liquidityCheck_yields .., rfl⟩

end SettlementOS.Analysis
