import SettlementOS.Computation.Csv
import SettlementOS.Model.Payment

/-!
# The reconciliation export (`app/api/reconciliation`)

One line a payment, as comma-separated values, under a line of column names. How a date and a sum
of numbers are written is the runtime's business; neither has a carriage return in it.
-/

set_option autoImplicit false

namespace SettlementOS.Model.Reconciliation

open SettlementOS.Computation Csv

/-- What the runtime writes. -/
structure Rendering where
  /-- `Date.prototype.toISOString`, of milliseconds -/
  toISOString : ℤ → String
  /-- the text of `ledgerCredits.reduce((sum, c) => sum + Number(c.amount), 0) || ""` -/
  creditSum : List String → String
  date_plain : ∀ t, '\r' ∉ (toISOString t).toList
  credit_plain : ∀ amounts, '\r' ∉ (creditSum amounts).toList

/-- A payment with its parties and credits, the columns the export reads. -/
structure ExportedPayment where
  id : String
  referenceId : String
  createdAt : ℤ
  status : String
  senderName : String
  recipientName : String
  sourceCurrency : String
  destinationCurrency : String
  amount : String
  sourceAsset : String
  fxRate : Option String := none
  destinationAmount : Option String := none
  feeJson : Option FeeBreakdown := none
  sourceNetwork : String
  destinationNetwork : String
  txHash : Option String := none
  settleTxHash : Option String := none
  destinationTxHash : Option String := none
  ledgerCredits : List String := []

/-- `header` -/
def header : List Text :=
  ["payment_id", "reference_id", "created_at", "status", "sender", "recipient", "corridor",
    "source_amount", "source_asset", "fx_rate", "destination_amount", "destination_currency",
    "platform_fee", "source_network", "destination_network", "escrow_tx_hash", "settlement_tx_hash",
    "destination_payout_tx_hash", "ledger_credit_amount"].map String.toList

/-- `esc`, of a string. -/
def esc (s : Text) : Text :=
  if s.any fun c => c = '"' || c = ',' || c = '\n' then '"' :: (doubled s ++ ['"']) else s

/-- `sourceCurrency-destinationCurrency` -/
def corridor (p : ExportedPayment) : Text :=
  p.sourceCurrency.toList ++ '-' :: p.destinationCurrency.toList

/-- `platform_fee`, where there is a fee. -/
def platformFee (p : ExportedPayment) : Text :=
  match p.feeJson with
  | some fee => fee.platformFee.toList
  | none => []

/-- A column that may be null. -/
def orEmpty (column : Option String) : Text := (column.getD "").toList

/-- The fields of a payment, in the order of the header. -/
def fields (rt : Rendering) (p : ExportedPayment) : List Text :=
  [p.id.toList, p.referenceId.toList, (rt.toISOString p.createdAt).toList, p.status.toList,
    p.senderName.toList, p.recipientName.toList, corridor p, p.amount.toList, p.sourceAsset.toList,
    orEmpty p.fxRate, orEmpty p.destinationAmount, p.destinationCurrency.toList, platformFee p,
    p.sourceNetwork.toList, p.destinationNetwork.toList, orEmpty p.txHash, orEmpty p.settleTxHash,
    orEmpty p.destinationTxHash, (rt.creditSum p.ledgerCredits).toList]

/-- The line of a payment. -/
def line (rt : Rendering) (p : ExportedPayment) : Text := joined ',' ((fields rt p).map esc)

/-- The body `GET /api/reconciliation` answers with, of the payments in the range. -/
def reconciliationCsv (rt : Rendering) (payments : List ExportedPayment) : Text :=
  joined '\n' (joined ',' header :: payments.map (line rt))

/-- The texts a payment brings with it: all its columns but the date and the credits. -/
def textColumns (p : ExportedPayment) : List Text :=
  [p.id.toList, p.referenceId.toList, p.status.toList, p.senderName.toList, p.recipientName.toList,
    corridor p, p.amount.toList, p.sourceAsset.toList, orEmpty p.fxRate,
    orEmpty p.destinationAmount, p.destinationCurrency.toList, platformFee p,
    p.sourceNetwork.toList, p.destinationNetwork.toList, orEmpty p.txHash, orEmpty p.settleTxHash,
    orEmpty p.destinationTxHash]

end SettlementOS.Model.Reconciliation
