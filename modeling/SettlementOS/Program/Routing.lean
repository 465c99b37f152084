import SettlementOS.Program.Statements

/-!
# Quoting a payment (`lib/routing.ts`)

The liquidity a quote or an execution finds on a network, and the routes a quote offers:
one pair of routes on a single network, a bridge and a fallback across two. Every route
starts on the payment's own source network.
-/

set_option autoImplicit false

namespace SettlementOS.Program

open SettlementOS.Computation Model

/-- `LiquiditySnapshot`, the fields the program reads. -/
structure LiquiditySnapshot where
  availableUnits : ℕ
  decimals : ℕ
  available : String
  deriving DecidableEq, Repr

/-- `availableLiquidity`. -/
def availableLiquidity (env : Env) (symbol : AssetSymbol) (network : Network) :
    Saga LiquiditySnapshot :=
  match env.deployments.networks network with
  | none => .throw (.error s!"Unknown network {network}")
  | some net => do
    let token ← lift (tokenOn net network symbol)
    let balance ← call (.freeTreasuryBalance network symbol)
    return ⟨balance.free, token.decimals, fromBaseUnits balance.free token.decimals⟩

/-- `LiquidityCheck`. -/
structure LiquidityCheck where
  ok : Bool
  recallRequired : Bool
  deriving DecidableEq, Repr

/-- The errors of `liquidityCheck` that are our own and not an endpoint's. -/
def unreadableAmount : Err → Bool
  | .money _ _ => true
  | .treasury code _ => code == .invalidAmount
  | _ => false

/-- `liquidityCheck`. -/
def liquidityCheck (env : Env) (symbol : AssetSymbol) (network : Network) (needed : String) :
    Saga LiquidityCheck :=
  if env.isChainReady then
    Prog.handle (do
      let liq ← availableLiquidity env symbol network
      let neededUnits ← lift (destinationUnits needed liq.decimals)
      if neededUnits ≤ liq.availableUnits then return ⟨true, false⟩
      else
        let parked ← call (.parkedBalance network symbol)
        if neededUnits ≤ liq.availableUnits + parked then return ⟨true, true⟩
        else return ⟨false, false⟩)
      fun e => if unreadableAmount e then .throw e else .ret ⟨true, false⟩
  else .ret ⟨true, false⟩

/-- What all the routes of one quote share (`common`). -/
def routeCommon (fx : FxQuote) (platformFee : String) (sourceAsset destAsset : AssetSymbol)
    (source dest : Network) : RouteOption where
  routeId := ""
  sourceNetwork := source
  destinationNetwork := dest
  sourceAsset := sourceAsset
  destinationAsset := destAsset
  estimatedGasUsd := ""
  estimatedFxRate := ""
  fxSpreadBps := fx.spreadBps
  slippageBps := fx.slippageBps
  platformFeeBps := fx.platformFeeBps
  bridgeFeeBps := 0
  platformFee := platformFee
  estimatedDestinationAmount := ""
  liquidityAvailable := true
  recallRequired := false
  recommended := false

/-- The two routes of a payment that stays on one network. -/
def singleNetworkRoutes (paymentId : String) (common : RouteOption) (effective destAmount : String)
    (liq : LiquidityCheck) : List RouteOption :=
  [{ common with
      routeId := s!"route_{paymentId}_instant"
      estimatedGasUsd := "0.11"
      estimatedFxRate := effective
      estimatedDestinationAmount := destAmount
      liquidityAvailable := liq.ok
      recallRequired := liq.recallRequired
      recommended := true },
   { common with
      routeId := s!"route_{paymentId}_batched"
      estimatedGasUsd := "0.03"
      estimatedFxRate := effective
      estimatedDestinationAmount := destAmount
      liquidityAvailable := liq.ok
      recallRequired := liq.recallRequired
      recommended := false }]

/-- The two routes of a payment across networks: the bridge, and the fallback that settles on
the source network. -/
def crossNetworkRoutes (paymentId : String) (common : RouteOption)
    (bridgedRate bridgedAmount fallbackRate fallbackAmount : String)
    (bridgedLiq fallbackLiq : LiquidityCheck) : List RouteOption :=
  [{ common with
      routeId := s!"route_{paymentId}_bridge"
      estimatedGasUsd := "0.26"
      estimatedFxRate := bridgedRate
      bridgeFeeBps := bridgeFeeBps
      estimatedDestinationAmount := bridgedAmount
      liquidityAvailable := bridgedLiq.ok
      recallRequired := bridgedLiq.recallRequired
      recommended := true },
   { common with
      routeId := s!"route_{paymentId}_srcchain"
      destinationNetwork := common.sourceNetwork
      estimatedGasUsd := "0.11"
      estimatedFxRate := fallbackRate
      estimatedDestinationAmount := fallbackAmount
      liquidityAvailable := fallbackLiq.ok
      recallRequired := fallbackLiq.recallRequired
      recommended := false }]

/-- `quoteRoutes`. -/
def quoteRoutes (env : Env) : Saga (List RouteOption) := do
  let payment ← call .findPayment
  let src := payment.sourceCurrency
  let dst := payment.destinationCurrency
  let amountMinor ← lift (parseAmount payment.amount src)
  let sourceNet := payment.sourceNetwork
  let destNet := payment.destinationNetwork
  let sourceAsset ← lift (assetForCurrency src)
  let destAsset ← lift (assetForCurrency dst)
  let fx ← lift (quoteFx amountMinor src dst)
  let platformFee ← lift (formatMinorUnits fx.platformFee src)
  let common := routeCommon fx platformFee sourceAsset.symbol destAsset.symbol sourceNet destNet
  if sourceNet = destNet then
    let destAmount ← lift (formatMinorUnits fx.destinationAmount dst)
    let liq ← liquidityCheck env destAsset.symbol destNet destAmount
    let _ ← lift (env.networkInfo sourceNet)
    return singleNetworkRoutes payment.id common (formatRate fx.effectiveRate) destAmount liq
  else
    let _ ← lift (env.networkInfo sourceNet)
    let _ ← lift (env.networkInfo destNet)
    let bridgedEffective := applyBps fx.midRate (fxSpreadBps + fx.slippageBps + bridgeFeeBps)
    let bridgedUnits ← lift (convert (amountMinor - fx.platformFee) bridgedEffective src dst)
    let bridgedDestAmount ← lift (formatMinorUnits bridgedUnits dst)
    let fallbackDestAmount ← lift (formatMinorUnits fx.destinationAmount dst)
    let bridgedLiq ← liquidityCheck env destAsset.symbol destNet bridgedDestAmount
    let fallbackLiq ← liquidityCheck env destAsset.symbol sourceNet fallbackDestAmount
    return crossNetworkRoutes payment.id common (formatRate bridgedEffective) bridgedDestAmount
      (formatRate fx.effectiveRate) fallbackDestAmount bridgedLiq fallbackLiq

end SettlementOS.Program
