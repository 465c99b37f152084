import SettlementOS.Model.Money
import SettlementOS.Model.State

/-!
# The rows a payment owns (`prisma/schema.prisma`, `lib/transitions.ts`)

The payment's own row, the columns one statement may write to it, its reservation, ledger
credits and screening results, and the audit events written about it. A statement that
changes the status writes `transitionData`, and its event carries `transitionDetail`;
both spread the caller's options the way the source does, later keys winning.

Columns nothing modelled reads (names, memos, creation times) are left out.
-/

set_option autoImplicit false

namespace SettlementOS.Model

/-- A network's id. -/
abbrev Network := String

/-- A transaction's hash: its place in the list of the transactions sent. -/
abbrev Hash := ℕ

/-- `RouteOption`, the fields the program reads back. -/
structure RouteOption where
  routeId : String
  sourceNetwork : Network
  destinationNetwork : Network
  sourceAsset : AssetSymbol
  destinationAsset : AssetSymbol
  estimatedGasUsd : String
  estimatedFxRate : String
  fxSpreadBps : ℕ
  slippageBps : ℕ
  platformFeeBps : ℕ
  bridgeFeeBps : ℕ
  platformFee : String
  estimatedDestinationAmount : String
  liquidityAvailable : Bool
  recallRequired : Bool
  recommended : Bool
  deriving DecidableEq, Repr

/-- The fee breakdown a quote stores. -/
structure FeeBreakdown where
  platformFee : String
  platformFeeBps : ℕ
  fxSpreadBps : ℕ
  slippageBps : ℕ
  estimatedGasUsd : String
  deriving DecidableEq, Repr

/-- `Payment`: the row. A JSON column holds the value it encodes. -/
structure Payment where
  id : String
  status : PaymentStatus
  recipientId : String
  amount : String
  sourceCurrency : String
  destinationCurrency : String
  sourceNetwork : Network
  destinationNetwork : Network
  quoteJson : Option (List RouteOption) := none
  selectedRouteId : Option String := none
  fxRate : Option String := none
  destinationAmount : Option String := none
  feeJson : Option FeeBreakdown := none
  onchainPaymentId : Option String := none
  txHash : Option Hash := none
  settleTxHash : Option Hash := none
  destinationTxHash : Option Hash := none
  compensationTxHash : Option Hash := none
  failureReason : Option String := none
  /-- held for the duration of one attempt -/
  executionLeaseId : Option ℕ := none
  leasedAt : Option ℕ := none
  deriving DecidableEq, Repr

/-- `Partial<Payment>`: the columns a statement writes. -/
structure PaymentPatch where
  status : Option PaymentStatus := none
  destinationNetwork : Option Network := none
  quoteJson : Option (List RouteOption) := none
  selectedRouteId : Option String := none
  fxRate : Option String := none
  destinationAmount : Option String := none
  feeJson : Option FeeBreakdown := none
  onchainPaymentId : Option String := none
  txHash : Option Hash := none
  settleTxHash : Option Hash := none
  destinationTxHash : Option Hash := none
  compensationTxHash : Option Hash := none
  failureReason : Option String := none
  /-- `some none` writes a null -/
  executionLeaseId : Option (Option ℕ) := none
  leasedAt : Option (Option ℕ) := none
  deriving DecidableEq, Repr

/-- The row after `data` is written to it. -/
def Payment.apply (p : Payment) (data : PaymentPatch) : Payment where
  id := p.id
  status := data.status.getD p.status
  recipientId := p.recipientId
  amount := p.amount
  sourceCurrency := p.sourceCurrency
  destinationCurrency := p.destinationCurrency
  sourceNetwork := p.sourceNetwork
  destinationNetwork := data.destinationNetwork.getD p.destinationNetwork
  quoteJson := data.quoteJson <|> p.quoteJson
  selectedRouteId := data.selectedRouteId <|> p.selectedRouteId
  fxRate := data.fxRate <|> p.fxRate
  destinationAmount := data.destinationAmount <|> p.destinationAmount
  feeJson := data.feeJson <|> p.feeJson
  onchainPaymentId := data.onchainPaymentId <|> p.onchainPaymentId
  txHash := data.txHash <|> p.txHash
  settleTxHash := data.settleTxHash <|> p.settleTxHash
  destinationTxHash := data.destinationTxHash <|> p.destinationTxHash
  compensationTxHash := data.compensationTxHash <|> p.compensationTxHash
  failureReason := data.failureReason <|> p.failureReason
  executionLeaseId := data.executionLeaseId.getD p.executionLeaseId
  leasedAt := data.leasedAt.getD p.leasedAt

/-- `{ ...a, ...b }`. -/
def PaymentPatch.spread (a b : PaymentPatch) : PaymentPatch where
  status := b.status <|> a.status
  destinationNetwork := b.destinationNetwork <|> a.destinationNetwork
  quoteJson := b.quoteJson <|> a.quoteJson
  selectedRouteId := b.selectedRouteId <|> a.selectedRouteId
  fxRate := b.fxRate <|> a.fxRate
  destinationAmount := b.destinationAmount <|> a.destinationAmount
  feeJson := b.feeJson <|> a.feeJson
  onchainPaymentId := b.onchainPaymentId <|> a.onchainPaymentId
  txHash := b.txHash <|> a.txHash
  settleTxHash := b.settleTxHash <|> a.settleTxHash
  destinationTxHash := b.destinationTxHash <|> a.destinationTxHash
  compensationTxHash := b.compensationTxHash <|> a.compensationTxHash
  failureReason := b.failureReason <|> a.failureReason
  executionLeaseId := b.executionLeaseId <|> a.executionLeaseId
  leasedAt := b.leasedAt <|> a.leasedAt

/-! ## Audit events -/

/-- A value of an audit detail. -/
inductive Json where
  | null
  | str (s : String)
  | num (n : ℕ)
  | hash (h : Hash)
  | strs (l : List String)
  | routes (l : List RouteOption)
  | fees (f : FeeBreakdown)
  deriving DecidableEq, Repr

/-- An audit detail: an object, its keys in the order they were first written. -/
abbrev Detail := List (String × Json)

/-- Write one key: in place when the object has it, at the end when it does not. -/
def Detail.set (d : Detail) (key : String) (value : Json) : Detail :=
  match d with
  | [] => [(key, value)]
  | (k, v) :: d => if k = key then (k, value) :: d else (k, v) :: Detail.set d key value

/-- `{ ...a, ...b }`. -/
def Detail.spread (a b : Detail) : Detail := b.foldl (fun d kv => Detail.set d kv.1 kv.2) a

/-- A hash, or the null it is before there is one. -/
def Json.ofHash : Option Hash → Json
  | some h => .hash h
  | none => .null

/-- The columns of a patch as the keys of an object. -/
def PaymentPatch.toDetail (data : PaymentPatch) : Detail :=
  (data.status.map fun s => ("status", Json.str s.name)).toList ++
  (data.destinationNetwork.map fun n => ("destinationNetwork", Json.str n)).toList ++
  (data.quoteJson.map fun q => ("quoteJson", Json.routes q)).toList ++
  (data.selectedRouteId.map fun r => ("selectedRouteId", Json.str r)).toList ++
  (data.fxRate.map fun r => ("fxRate", Json.str r)).toList ++
  (data.destinationAmount.map fun a => ("destinationAmount", Json.str a)).toList ++
  (data.feeJson.map fun f => ("feeJson", Json.fees f)).toList ++
  (data.onchainPaymentId.map fun i => ("onchainPaymentId", Json.str i)).toList ++
  (data.txHash.map fun h => ("txHash", Json.hash h)).toList ++
  (data.settleTxHash.map fun h => ("settleTxHash", Json.hash h)).toList ++
  (data.destinationTxHash.map fun h => ("destinationTxHash", Json.hash h)).toList ++
  (data.compensationTxHash.map fun h => ("compensationTxHash", Json.hash h)).toList ++
  (data.failureReason.map fun s => ("failureReason", Json.str s)).toList ++
  (data.executionLeaseId.map fun l => ("executionLeaseId",
    (l.map Json.num).getD .null)).toList ++
  (data.leasedAt.map fun t => ("leasedAt", (t.map Json.num).getD .null)).toList

/-- An audit event before it is chained: what `audit` is called with. -/
structure AuditRecord where
  action : String
  actor : String
  paymentId : Option String
  detail : Detail
  deriving DecidableEq, Repr

/-! ## A status change -/

/-- `TransitionOpts`. -/
structure TransitionOpts where
  data : PaymentPatch := {}
  detail : Detail := []
  auditData : Option PaymentPatch := none
  action : Option String := none
  actor : Option String := none
  deriving DecidableEq, Repr

/-- `releaseLease`. -/
def releaseLease (next : PaymentStatus) : PaymentPatch :=
  if next ∈ leaseReleaseStates then
    { executionLeaseId := some none, leasedAt := some none }
  else {}

/-- `{ status: to, ...data, ...releaseLease }`. -/
def transitionData (next : PaymentStatus) (opts : TransitionOpts) : PaymentPatch :=
  (PaymentPatch.spread { status := some next } opts.data).spread (releaseLease next)

/-- `{ from, to, ...(auditData ?? data), ...detail }`. -/
def transitionDetail (s next : PaymentStatus) (opts : TransitionOpts) : Detail :=
  Detail.spread
    (Detail.spread [("from", .str s.name), ("to", .str next.name)]
      (opts.auditData.getD opts.data).toDetail)
    opts.detail

/-- The event of a status change. -/
def transitionRecord (paymentId : String) (s next : PaymentStatus) (opts : TransitionOpts) :
    AuditRecord where
  action := opts.action.getD ("payment.status." ++ next.lowerName)
  actor := opts.actor.getD "system"
  paymentId := some paymentId
  detail := transitionDetail s next opts

/-! ## The rows next to the payment -/

/-- The status column of a reservation. -/
inductive ReservationStatus where
  | reserved
  | consumed
  | released
  deriving DecidableEq, Repr

/-- `LiquidityReservation`; one for each payment. -/
structure LiquidityReservation where
  asset : AssetSymbol
  network : Network
  amount : String
  status : ReservationStatus
  deriving DecidableEq, Repr

/-- `LedgerCredit`. -/
structure LedgerCredit where
  entityId : String
  currency : String
  amount : String
  deriving DecidableEq, Repr

/-- `ComplianceStatus`. -/
inductive ComplianceStatus where
  | pass
  | manualReview
  | fail
  | exemptTestnet
  deriving DecidableEq, Repr

/-- `ComplianceCheck`. -/
structure ComplianceCheck where
  provider : String
  checkType : String
  status : ComplianceStatus
  score : ℕ
  reasonCodes : List String
  deriving DecidableEq, Repr

/-- `Wallet`, the columns the program reads. -/
structure Wallet where
  network : Network
  address : String
  allowlisted : Bool := true
  riskScore : ℕ := 0
  deriving DecidableEq, Repr

/-- `Entity`, the columns the program reads. -/
structure Entity where
  id : String
  externalId : String
  name : String
  kybStatus : String := "PASSED"
  approvedCorridors : List String := []
  wallets : List Wallet := []
  deriving DecidableEq, Repr

/-- `walletOnNetwork`: the entity's wallet on the network, else its first one. -/
def walletOnNetwork (wallets : List Wallet) (network : Network) : Option Wallet :=
  (wallets.find? fun w => w.network = network) <|> wallets.head?

end SettlementOS.Model
