import SettlementOS.Model.Money

/-!
# The FX engine (`lib/fx.ts`)

Amounts are integers in minor units, rates integers scaled by `10 ^ rateDecimals`. Every
division rounds down, except the inverse of a table rate, which is the nearest one the
scale allows.
-/

set_option autoImplicit false

namespace SettlementOS.Model

/-- `RATE_DECIMALS`. -/
def rateDecimals : ℕ := 18

/-- `RATE_SCALE`. -/
def rateScale : ℕ := 10 ^ rateDecimals

/-- `BPS_SCALE`. -/
def bpsScale : ℕ := 10000

/-- `FX_SPREAD_BPS`. -/
def fxSpreadBps : ℕ := 20

/-- `PLATFORM_FEE_BPS`. -/
def platformFeeBps : ℕ := 10

/-- `BRIDGE_FEE_BPS` (`lib/routing.ts`). -/
def bridgeFeeBps : ℕ := 5

/-- `MID_RATE_DECIMALS`, as `parseScaledUnits` reads it at the rate's scale. -/
def midRateTable (source dest : String) : Option ℕ :=
  if source = "USD" ∧ dest = "JPY" then some (1572 * 10 ^ 17)
  else if source = "USD" ∧ dest = "SGD" then some (135 * 10 ^ 16)
  else if source = "SGD" ∧ dest = "JPY" then some (11644 * 10 ^ 16)
  else none

/-- `MID_RATES`: a table rate, or the inverse of one. -/
def midRates (source dest : String) : Option ℕ :=
  match midRateTable source dest with
  | some rate => some rate
  | none => (midRateTable dest source).map fun rate =>
      (rateScale * rateScale + rate / 2) / rate

/-- `midRate`. -/
def midRate (source dest : String) : Except Err ℕ :=
  if source = dest then .ok rateScale
  else
    match midRates source dest with
    | some rate => .ok rate
    | none => .error (.error s!"Unsupported corridor {source}→{dest}")

/-- `formatRate`, at the six decimals every caller uses. -/
def formatRate (rateScaled : ℕ) : String :=
  formatScaledUnits (rateScaled / 10 ^ (rateDecimals - 6)) 6

/-- `applyBps`. -/
def applyBps (rateScaled bps : ℕ) : ℕ := rateScaled * (bpsScale - bps) / bpsScale

/-- `convert`. -/
def convert (amountMinor rateScaled : ℕ) (sourceCurrency destCurrency : String) :
    Except Err ℕ := do
  let sourceDecimals ← currencyDecimals sourceCurrency
  let destDecimals ← currencyDecimals destCurrency
  return amountMinor * rateScaled * 10 ^ destDecimals / (rateScale * 10 ^ sourceDecimals)

/-- `slippageBps`. -/
def slippageBps (usdEquivalentMinor : ℕ) : ℕ :=
  if usdEquivalentMinor ≤ 1000000 then 1
  else if usdEquivalentMinor ≤ 10000000 then 3
  else if usdEquivalentMinor ≤ 50000000 then 8
  else 15

/-- `usdEquivalent`. -/
def usdEquivalent (amountMinor : ℕ) (sourceCurrency : String) : Except Err ℕ := do
  if sourceCurrency = "USD" then return amountMinor
  let rate ← midRate sourceCurrency "USD"
  convert amountMinor rate sourceCurrency "USD"

/-- `FxQuote`. -/
structure FxQuote where
  midRate : ℕ
  effectiveRate : ℕ
  spreadBps : ℕ
  slippageBps : ℕ
  platformFeeBps : ℕ
  /-- destination-currency minor units -/
  destinationAmount : ℕ
  /-- source-currency minor units -/
  platformFee : ℕ
  deriving DecidableEq, Repr

/-- `quoteFx`. -/
def quoteFx (amountMinor : ℕ) (sourceCurrency destCurrency : String) : Except Err FxQuote := do
  let mid ← midRate sourceCurrency destCurrency
  let slip := slippageBps (← usdEquivalent amountMinor sourceCurrency)
  let effective := applyBps mid (fxSpreadBps + slip)
  let platformFee := amountMinor * platformFeeBps / bpsScale
  let destinationAmount ← convert (amountMinor - platformFee) effective sourceCurrency destCurrency
  return {
    midRate := mid
    effectiveRate := effective
    spreadBps := fxSpreadBps
    slippageBps := slip
    platformFeeBps := platformFeeBps
    destinationAmount := destinationAmount
    platformFee := platformFee }

end SettlementOS.Model
