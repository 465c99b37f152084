import Mathlib.Algebra.Ring.Int.Defs
import SettlementOS.Model.Treasury

/-!
# Parking and recalling (`lib/treasury.ts`)

The four operations of the treasury, statement by statement. Each reads the chain, sends a
transaction and writes what came of it; nothing ties the three together.
-/

set_option autoImplicit false

namespace SettlementOS.Program.Treasury

open SettlementOS.Computation Model.Treasury
open Model (AssetSymbol Detail Err Hash Json fromBaseUnits parseScaledUnits)
open SettlementOS.Contracts (Address)

/-- A computation of the treasury. -/
abbrev Operation (α : Type) := Prog treasuryEffects Err α

/-- A statement: it answers, or throws. -/
def call (o : Stmt) : Operation o.Result := .perform o fun r => Prog.ofExcept r

/-- A computation that performs no statement. -/
def lift {α : Type} (x : Except Err α) : Operation α := Prog.ofExcept x

/-- `audit`, in a transaction of its own. -/
def audit (action : String) (detail : Detail) (paymentId : Option String) : Operation Unit :=
  call (.audit ⟨action, "system", paymentId, detail⟩)

/-! ## The fund and its asset -/

/-- `fundFor` -/
def fundFor (env : Env) : Except Err Address :=
  match env.mmfAddress with
  | some fund => .ok fund
  | none => .error (.treasury .noFund s!"No tokenized MMF is deployed on {env.networkId}")

/-- An asset, by the name it has in `ASSETS`. -/
def assetNamed (name : String) : Option AssetSymbol :=
  [AssetSymbol.mockUSDC, .mockJPY, .mockSGD].find? fun symbol => symbol.name = name

/-- `FundAsset`, without the fund. -/
structure FundAsset where
  token : Address
  symbol : AssetSymbol
  decimals : ℕ

/-- The token of an asset on the network. -/
def tokenFor (env : Env) (symbol : AssetSymbol) : Except Err DeployedToken :=
  match env.tokens symbol with
  | some token => .ok token
  | none => .error (.treasury .unsupportedAsset
      s!"Token {symbol.name} is not deployed on {env.networkId}")

/-- `fundAssetFor` -/
def fundAssetFor (env : Env) (assetSymbol : String) : Operation FundAsset := do
  let _ ← lift (fundFor env)
  match assetNamed assetSymbol with
  | none => throw (.treasury .unsupportedAsset s!"Unknown settlement asset {assetSymbol}")
  | some symbol =>
    let token ← lift (tokenFor env symbol)
    let backing ← call .asset
    if backing ≠ token.address then
      let held := toString (show Fin (2 ^ 160) from backing)
      throw (.treasury .unsupportedAsset
        s!"The {env.networkId} MMF is not backed by {symbol.name} — it holds {held}")
    else
      return ⟨token.address, symbol, token.decimals⟩

/-- `parseAssetUnits` -/
def parseAssetUnits (amount : String) (decimals : ℕ) (what : String) : Except Err ℕ :=
  (parseScaledUnits amount decimals what none).mapError fun e => .treasury .invalidAmount e.message

/-- `parsePositiveAssetUnits` -/
def parsePositiveAssetUnits (amount : String) (decimals : ℕ) : Except Err ℕ := do
  let units ← parseAssetUnits amount decimals "amount"
  if units = 0 then
    throw (.treasury .invalidAmount s!"Amount must be greater than zero, got \"{amount}\"")
  return units

/-- `TreasuryBalance` -/
structure TreasuryBalance where
  balance : ℕ
  reserved : ℕ
  free : ℕ
  deriving DecidableEq, Repr

/-- What the reservations add up to. -/
def reservedUnits (amounts : List String) (decimals : ℕ) : Except Err ℕ :=
  amounts.foldlM (fun sum amount => do
    let units ← parseAssetUnits amount decimals "reserved amount"
    return sum + units) 0

/-- `freeTreasuryBalance` -/
def freeTreasuryBalance (env : Env) (symbol : AssetSymbol) : Operation TreasuryBalance := do
  let token ← lift (tokenFor env symbol)
  let balance ← call (.balanceOf token.address)
  let reservations ← call (.findReservations symbol)
  let reserved ← lift (reservedUnits reservations token.decimals)
  return ⟨balance, reserved, balance - reserved⟩

/-- `assertEligible` -/
def assertEligible (entityId : String) : Operation Unit := do
  match ← call (.findEntity entityId) with
  | none => throw (.treasury .notEligible s!"Unknown entity {entityId}")
  | some entity =>
    if !entity.mmfEligible || !entity.mmfOptIn then
      throw (.treasury .notEligible
        (s!"Entity {entity.externalId} is not cleared for MMF parking " ++
        s!"(eligible={entity.mmfEligible}, opted in={entity.mmfOptIn})"))
    else return

/-- `ensureTreasuryAllowance` -/
def ensureTreasuryAllowance (token : Address) (amount : ℕ) : Operation Unit := do
  let allowed ← call (.allowance token)
  if amount ≤ allowed then return
  else
    let _ ← call (.approve token (2 ^ 256 - 1))
    return

/-- A write on the fund, by `mmfOperatorWrite`. -/
def mmfOperatorWrite (env : Env) {o : Stmt} (write : Operation o.Result) : Operation o.Result :=
  match env.mmfAddress with
  | none => throw (.error s!"No TokenizedMMF deployed on {env.networkId}")
  | some _ => write

/-- `fromBaseUnits` of an amount that may be negative: the sign is one of the digits. -/
def fromSignedUnits (amount : ℤ) (decimals : ℕ) : String :=
  if decimals = 0 then toString amount
  else
    let digits := (toString amount).toList
    let padded := List.replicate (decimals + 1 - digits.length) '0' ++ digits
    let whole := padded.take (padded.length - decimals)
    let frac := ((padded.drop (padded.length - decimals)).reverse.dropWhile (· = '0')).reverse
    if frac.isEmpty then String.ofList whole
    else String.ofList whole ++ "." ++ String.ofList frac

/-! ## Parking -/

/-- `ParkArgs` -/
structure ParkArgs where
  asset : String
  amount : String
  entityId : Option String
  deriving DecidableEq, Repr

/-- `ParkResult` -/
structure ParkResult where
  positionId : ℕ
  shares : ℤ
  assetAmount : ℕ
  indexAtEntry : ℕ
  txHash : Hash
  deriving DecidableEq, Repr

/-- The columns and the event of a position, once its asset is subscribed. -/
def recordPark (asset : FundAsset) (env : Env) (args : ParkArgs) (row : NewPosition) :
    Operation ℕ :=
  let fund := toString (show Fin (2 ^ 160) from env.fund)
  call (.recordPark row ([("network", .str env.networkId), ("asset", .str asset.symbol.name),
    ("amount", .str (fromBaseUnits row.assetAmountIn asset.decimals)),
    ("assetAmountUnits", .str (toString row.assetAmountIn)),
    ("shares", .str (toString row.shares)), ("indexAtEntry", .str (toString row.indexAtEntry)),
    ("fund", .str fund), ("txHash", .hash row.txHashPark)] ++
    ((args.entityId.filter (· ≠ "")).map fun id => ("entityId", Json.str id)).toList))

/-- The subscription of a parking: the shares are what the treasury has more of after it. -/
def subscribeFor (env : Env) (asset : FundAsset) (args : ParkArgs) (assetAmount : ℕ) :
    Operation ParkResult := do
  let indexAtEntry ← call .currentIndex
  let sharesBefore ← call .sharesOf
  let hash ← mmfOperatorWrite env (call (.subscribe assetAmount))
  let sharesAfter ← call .sharesOf
  let shares : ℤ := sharesAfter - sharesBefore
  let id ← recordPark asset env args ⟨asset.symbol, shares, assetAmount, indexAtEntry, hash⟩
  return ⟨id, shares, assetAmount, indexAtEntry, hash⟩

/-- `if (entityId) await assertEligible(entityId)` -/
def assertMayPark (args : ParkArgs) : Operation Unit :=
  match args.entityId.filter (· ≠ "") with
  | some entityId => assertEligible entityId
  | none => return

/-- `park` -/
def park (env : Env) (args : ParkArgs) : Operation ParkResult := do
  assertMayPark args
  let asset ← fundAssetFor env args.asset
  let assetAmount ← lift (parsePositiveAssetUnits args.amount asset.decimals)
  let balance ← freeTreasuryBalance env asset.symbol
  if balance.free < assetAmount then
    let free := fromBaseUnits balance.free asset.decimals
    let held := fromBaseUnits balance.balance asset.decimals
    let reserved := fromBaseUnits balance.reserved asset.decimals
    throw (.treasury .insufficientFreeBalance
      (s!"Cannot park {args.amount} {asset.symbol.name} on {env.networkId}: only {free} is " ++
        s!"unreserved (balance {held}, reserved {reserved})"))
  else
    ensureTreasuryAllowance asset.token assetAmount
    subscribeFor env asset args assetAmount

/-! ## Recalling -/

/-- `RecallResult` -/
structure RecallResult where
  positionId : ℕ
  shares : ℤ
  assetAmount : ℤ
  indexAtExit : ℕ
  txHash : Hash
  deriving DecidableEq, Repr

/-- What is written of a position, once its shares are redeemed. -/
def recordRecall (env : Env) (asset : FundAsset) (position : Position) (assetAmount : ℤ)
    (indexAtExit : ℕ) (hash : Hash) : Operation Unit :=
  let fund := toString (show Fin (2 ^ 160) from env.fund)
  let gain := max (assetAmount - position.assetAmountIn) 0
  call (.recordRecall position.id hash [("positionId", .str (toString position.id)),
    ("network", .str env.networkId), ("asset", .str asset.symbol.name),
    ("shares", .str (toString position.shares)),
    ("amount", .str (fromSignedUnits assetAmount asset.decimals)),
    ("assetAmountUnits", .str (toString assetAmount)),
    ("principal", .str (fromBaseUnits position.assetAmountIn asset.decimals)),
    ("yield", .str (fromSignedUnits gain asset.decimals)),
    ("indexAtEntry", .str (toString position.indexAtEntry)),
    ("indexAtExit", .str (toString indexAtExit)), ("fund", .str fund), ("txHash", .hash hash)])

/-- The redemption of a position: what it pays is what the treasury has more of after it. -/
def redeemFor (env : Env) (asset : FundAsset) (position : Position) : Operation RecallResult := do
  let indexAtExit ← call .currentIndex
  let balanceBefore ← call (.balanceOf asset.token)
  let hash ← mmfOperatorWrite env (call (.redeem position.shares))
  let balanceAfter ← call (.balanceOf asset.token)
  let assetAmount : ℤ := balanceAfter - balanceBefore
  recordRecall env asset position assetAmount indexAtExit hash
  return ⟨position.id, position.shares, assetAmount, indexAtExit, hash⟩

/-- `recall` -/
def recallPosition (env : Env) (positionId : ℕ) : Operation RecallResult := do
  match ← call (.findPosition positionId) with
  | none => throw (.treasury .positionNotFound s!"No treasury position {positionId}")
  | some position =>
    if position.status ≠ .active then
      throw (.treasury .positionNotActive (s!"Position {positionId} is {position.status.name} " ++
        "and cannot be recalled again"))
    else
      let asset ← fundAssetFor env position.asset.name
      redeemFor env asset position

/-! ## Accruing -/

/-- `MMF_ANNUAL_RATE_BPS` -/
def mmfAnnualRateBps : ℤ := 350

/-- `BPS_SCALE * DAYS_PER_YEAR` -/
def dayScale : ℕ := 10000 * 365

/-- `dailyIndex` -/
def dailyIndex (currentIndex : ℕ) (annualRateBps : ℤ) : Except Err ℕ :=
  if annualRateBps < 0 then
    .error (.treasury .invalidRate s!"Annual rate must be >= 0 bps, got {annualRateBps}")
  else .ok (currentIndex + currentIndex * annualRateBps.toNat / dayScale)

/-- `currentIndexOf` -/
def currentIndexOf (env : Env) : Operation ℕ := do
  let _ ← lift (fundFor env)
  call .currentIndex

/-- `AccrueResult` -/
structure AccrueResult where
  oldIndex : ℕ
  newIndex : ℕ
  annualRateBps : ℤ
  txHash : Hash
  deriving DecidableEq, Repr

/-- `accrueDaily` -/
def accrueDaily (env : Env) (annualRateBps : ℤ) : Operation AccrueResult := do
  let fund ← lift (fundFor env)
  let oldIndex ← currentIndexOf env
  let newIndex ← lift (dailyIndex oldIndex annualRateBps)
  let hash ← mmfOperatorWrite env (call (.accrue newIndex))
  audit "TREASURY_ACCRUED" [("network", .str env.networkId),
    ("fund", .str (toString (show Fin (2 ^ 160) from fund))),
    ("oldIndex", .str (toString oldIndex)), ("newIndex", .str (toString newIndex)),
    ("annualRateBps", .str (toString annualRateBps)), ("days", .num 1), ("txHash", .hash hash)]
    none
  return ⟨oldIndex, newIndex, annualRateBps, hash⟩

/-! ## Recalling for a payment -/

/-- `valueOfShares` -/
def valueOfShares (shares : ℤ) (index : ℕ) : ℤ :=
  (shares * index).tdiv Contracts.Fund.INDEX_SCALE.val

/-- `parkedBalance` -/
def parkedBalance (env : Env) (symbol : AssetSymbol) : Operation ℤ :=
  match env.mmfAddress with
  | none => return 0
  | some _ => do
    let positions ← call (.findActive symbol)
    if positions.isEmpty then return 0
    else
      let index ← currentIndexOf env
      return (positions.map fun p => valueOfShares p.shares index).sum

/-- `RecallForPaymentArgs` -/
structure RecallForPaymentArgs where
  asset : String
  amount : String
  paymentId : String
  deriving DecidableEq, Repr

/-- `RecallForPaymentResult` -/
structure RecallForPaymentResult where
  recalled : List RecallResult
  assetAmount : ℤ
  deriving DecidableEq, Repr

/-- The loop that recalls until enough is freed. -/
def recallUntil (env : Env) (shortfall : ℤ) : List Position → List RecallResult → ℤ →
    Operation RecallForPaymentResult
  | [], recalled, freed => return ⟨recalled, freed⟩
  | position :: positions, recalled, freed =>
    if shortfall ≤ freed then return ⟨recalled, freed⟩
    else do
      let result ← recallPosition env position.id
      recallUntil env shortfall positions (recalled ++ [result]) (freed + result.assetAmount)

/-- The event of a recall for a payment. -/
def auditRecalled (env : Env) (asset : FundAsset) (args : RecallForPaymentArgs)
    (needed free : ℕ) (shortfall : ℤ) (result : RecallForPaymentResult) : Operation Unit :=
  audit "TREASURY_AUTO_RECALLED" [("network", .str env.networkId),
    ("asset", .str asset.symbol.name), ("needed", .str (fromBaseUnits needed asset.decimals)),
    ("freeBefore", .str (fromBaseUnits free asset.decimals)),
    ("shortfall", .str (fromSignedUnits shortfall asset.decimals)),
    ("recalledAmount", .str (fromSignedUnits result.assetAmount asset.decimals)),
    ("positionIds", .strs (result.recalled.map fun r => toString r.positionId)),
    ("txHashes", .strs (result.recalled.map fun r => toString r.txHash))] (some args.paymentId)

/-- Recalling what a payment is short of. -/
def recallShortfall (env : Env) (asset : FundAsset) (args : RecallForPaymentArgs)
    (needed free : ℕ) : Operation RecallForPaymentResult := do
  let shortfall : ℤ := needed - free
  let parked ← parkedBalance env asset.symbol
  let short := fromSignedUnits shortfall asset.decimals
  if parked < shortfall then
    let unreserved := fromBaseUnits free asset.decimals
    let kept := fromSignedUnits parked asset.decimals
    throw (.treasury .insufficientFreeBalance
      (s!"Cannot free {args.amount} {asset.symbol.name} on {env.networkId}: {unreserved} is " ++
        s!"unreserved and only {kept} is parked (short {short})"))
  else
    let positions ← call (.findActive asset.symbol)
    let result ← recallUntil env shortfall positions [] 0
    if result.assetAmount < shortfall then
      let missing := fromSignedUnits (shortfall - result.assetAmount) asset.decimals
      throw (.treasury .insufficientFreeBalance
        (s!"Recalled every parked {asset.symbol.name} position on {env.networkId} and still " ++
          s!"{missing} short of {args.amount}"))
    else
      auditRecalled env asset args needed free shortfall result
      return result

/-- `recallForPayment` -/
def recallForPayment (env : Env) (args : RecallForPaymentArgs) :
    Operation RecallForPaymentResult := do
  let asset ← fundAssetFor env args.asset
  let needed ← lift (parsePositiveAssetUnits args.amount asset.decimals)
  let balance ← freeTreasuryBalance env asset.symbol
  if needed ≤ balance.free then return ⟨[], 0⟩
  else recallShortfall env asset args needed balance.free

/-! ## The service -/

/-- The operations. -/
inductive Request where
  | park (args : ParkArgs)
  | recallPosition (positionId : ℕ)
  | recallForPayment (args : RecallForPaymentArgs)
  | accrueDaily (annualRateBps : ℤ)
  deriving DecidableEq, Repr

/-- What an operation returns. -/
inductive Response where
  | parked (result : ParkResult)
  | recalled (result : RecallResult)
  | freed (result : RecallForPaymentResult)
  | accrued (result : AccrueResult)
  deriving DecidableEq, Repr

/-- The program of an operation. -/
def serve (env : Env) : Request → Operation Response
  | .park args => do return .parked (← park env args)
  | .recallPosition positionId => do return .recalled (← recallPosition env positionId)
  | .recallForPayment args => do return .freed (← recallForPayment env args)
  | .accrueDaily annualRateBps => do return .accrued (← accrueDaily env annualRateBps)

/-- The operations of the treasury, interleaved, with whatever others do. -/
@[reducible] def service (env : Env) : Service where
  E := treasuryEffects
  State := State
  Choice := Choice
  exec := fun _ o c s => some (exec env o c s)
  Outside := Other
  outside := interfere env
  Request := Request
  Fault := Err
  Result := Response
  program := fun _ => serve env

end SettlementOS.Program.Treasury
