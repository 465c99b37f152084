import SettlementOS.Program.Executor

/-!
# The operator's list of stuck payments (`lib/executor.ts`)

`stuckPayments` picks candidates by the status of their row and whether they have a
reservation, reads each one's escrow on its source network, and keeps those that still hold
funds. The order of the list is the order of the rows.
-/

set_option autoImplicit false

namespace SettlementOS.Program

open SettlementOS.Model

/-- A payment's row, with its reservation row when it has one. -/
abbrev PaymentRow := Payment × Option LiquidityReservation

/-- `StuckPayment`. -/
structure StuckPayment where
  payment : Payment
  /-- null when the read failed -/
  escrowState : Option OnchainPaymentState
  deriving DecidableEq, Repr

/-- The `where` of the query. -/
def stuckCandidate (row : PaymentRow) : Bool :=
  row.1.status == .compensationPending || row.1.status == .payoutPending ||
    (row.1.status == .failed && row.2.isSome)

/-- The filter on what was read: a read that failed keeps the payment on the list. -/
def StuckPayment.holdsFunds (r : StuckPayment) : Bool :=
  r.payment.status == .compensationPending || r.payment.status == .payoutPending ||
    r.escrowState == some .initiated || r.escrowState == some .settled || r.escrowState.isNone

/-- `stuckPayments`, over the rows of the table and what the reads of the escrows give. -/
def stuckPayments (rows : List PaymentRow) (escrowState : Payment → Option OnchainPaymentState) :
    List StuckPayment :=
  ((rows.filter stuckCandidate).map fun row => ⟨row.1, escrowState row.1⟩).filter
    StuckPayment.holdsFunds

end SettlementOS.Program
