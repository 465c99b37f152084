import SettlementOS.Computation.Service
import SettlementOS.Model.Chain
import SettlementOS.Model.Compliance

/-!
# One payment: the shared state and what each statement does to it

The state every request on a payment works on: the rows it owns, the audit events written
about it, the transactions sent for it and the escrow. `Stmt` lists the statements the
programs perform: one database statement, one transaction whose statements commit together
(a status change with its event, a reservation with its lease check), or one call to a
node. Each either fails, leaving the state as it was, or does what `Stmt.perform` says.

Figures read off chains and providers (balances, allowances, screening results) are the
outside's to choose; so is which statements fail, and when a transaction is mined.
-/

set_option autoImplicit false

namespace SettlementOS.Model

open SettlementOS.Computation

/-- `TreasuryBalance`. -/
structure TreasuryBalance where
  balance : ℕ
  reserved : ℕ
  free : ℕ
  deriving DecidableEq, Repr

/-- The shared state of one payment. -/
structure State where
  /-- the payment's row -/
  payment : Payment
  /-- its reservation row -/
  reservation : Option LiquidityReservation
  /-- its ledger credits -/
  ledgerCredits : List LedgerCredit
  /-- its screening results -/
  complianceChecks : List ComplianceCheck
  /-- the audit events about it, oldest first -/
  auditEvents : List AuditRecord
  /-- the transactions sent for it, a hash being a place in the list -/
  txs : List Tx
  /-- its escrow on each network's settlement contract -/
  escrow : Network → OnchainPaymentState

/-- What a payment is created with. -/
structure NewPayment where
  id : String
  recipientId : String
  amount : String
  sourceCurrency : String
  destinationCurrency : String
  sourceNetwork : Network
  destinationNetwork : Network
  deriving DecidableEq, Repr

/-- The row of a payment that has just been created. -/
def NewPayment.row (p : NewPayment) : Payment where
  id := p.id
  status := .draft
  recipientId := p.recipientId
  amount := p.amount
  sourceCurrency := p.sourceCurrency
  destinationCurrency := p.destinationCurrency
  sourceNetwork := p.sourceNetwork
  destinationNetwork := p.destinationNetwork

/-- A payment that has just been created: nothing reserved, nothing sent. -/
def State.created (p : NewPayment) : State where
  payment := p.row
  reservation := none
  ledgerCredits := []
  complianceChecks := []
  auditEvents := []
  txs := []
  escrow := fun _ => .none

/-- The statements. -/
inductive Stmt where
  /-- `payment.findUnique`, with the parties -/
  | findPayment
  /-- the `updateMany` that claims the lease at a status -/
  | claimLease (leaseId : ℕ) (status : PaymentStatus)
  /-- the `updateMany` that gives back one's own lease -/
  | releaseLease (leaseId : ℕ)
  /-- `payment.update` by id -/
  | updatePayment (data : PaymentPatch)
  /-- the transaction of `transitionStatus` -/
  | transition (status next : PaymentStatus) (opts : TransitionOpts)
  /-- the transaction that re-asserts the lease and reserves -/
  | reserve (leaseId : ℕ) (asset : AssetSymbol) (network : Network) (amount : String)
  /-- `liquidityReservation.update` by payment -/
  | updateReservation (status : ReservationStatus)
  /-- `ledgerCredit.findFirst` -/
  | findLedgerCredit
  /-- `ledgerCredit.create` -/
  | createLedgerCredit (credit : LedgerCredit)
  /-- `complianceCheck.createMany` -/
  | createComplianceChecks (checks : List ComplianceCheck)
  /-- `audit` in a transaction of its own -/
  | audit (record : AuditRecord)
  /-- the vendors' part of a screening, with the wallets it is about -/
  | screen (senderWallet recipientWallet : Option Wallet)
  /-- `freeTreasuryBalance` -/
  | freeTreasuryBalance (network : Network) (symbol : AssetSymbol)
  /-- `parkedBalance` -/
  | parkedBalance (network : Network) (symbol : AssetSymbol)
  /-- `recallForPayment` -/
  | recallForPayment (network : Network) (asset : AssetSymbol) (amount : String)
  /-- `allowance` of a token -/
  | allowance (network : Network) (token owner spender : String)
  /-- `wallet.writeContract`: the transaction is sent, and not mined yet -/
  | writeContract (network : Network) (call : Call)
  /-- `waitForTransactionReceipt` -/
  | waitForTransactionReceipt (network : Network) (hash : Hash)
  /-- `getTransactionReceipt` -/
  | getTransactionReceipt (network : Network) (hash : Hash)
  /-- `getPayment` on the settlement contract -/
  | getPayment (network : Network)

/-- What a statement that succeeds answers. -/
@[reducible] def Stmt.Result : Stmt → Type
  | .findPayment => Payment
  | .claimLease .. => Bool
  | .releaseLease .. => Unit
  | .updatePayment .. => Payment
  | .transition .. => Option Payment
  | .reserve .. => Bool
  | .updateReservation .. => Unit
  | .findLedgerCredit => Option LedgerCredit
  | .createLedgerCredit .. => Unit
  | .createComplianceChecks .. => Unit
  | .audit .. => Unit
  | .screen .. => VendorAnswers
  | .freeTreasuryBalance .. => TreasuryBalance
  | .parkedBalance .. => ℕ
  | .recallForPayment .. => Unit
  | .allowance .. => ℕ
  | .writeContract .. => Hash
  | .waitForTransactionReceipt .. => Receipt
  | .getTransactionReceipt .. => Option Receipt
  | .getPayment .. => OnchainPaymentState

/-- The statements and their answers. -/
@[reducible] def sagaEffects : Effects where
  Stmt := Stmt
  Answer o := Except Err o.Result

/-- Whether a statement goes to the database. -/
def Stmt.isDatabase : Stmt → Bool
  | .findPayment | .claimLease .. | .releaseLease .. | .updatePayment .. | .transition ..
  | .reserve .. | .updateReservation .. | .findLedgerCredit | .createLedgerCredit ..
  | .createComplianceChecks .. | .audit .. => true
  | _ => false

/-- What a statement throws when it fails. -/
def Stmt.fault (o : Stmt) (message : String) : Err :=
  if o.isDatabase then .database message else .node message

/-- What the outside decides about one statement. -/
structure Choice where
  /-- the message it fails with, when it fails -/
  fails : Option String := none
  /-- the clock -/
  now : ℕ := 0
  /-- what the vendors answer -/
  screening : VendorAnswers := {}
  /-- the treasury's figures -/
  treasury : TreasuryBalance := ⟨0, 0, 0⟩
  /-- the value of what is parked, or an allowance -/
  amount : ℕ := 0
  /-- what a recall throws, when it throws -/
  recallFault : Option Err := none

/-- The moves the outside makes: it mines a transaction. -/
inductive Mining where
  | mine (hash : Hash) (accepted : Bool) (blockNumber gasUsed : ℕ)

/-- The row, when it is one the `WHERE` of a status change matches. -/
def State.transition (s : State) (status next : PaymentStatus) (opts : TransitionOpts) :
    Option Payment × State :=
  if s.payment.status = status then
    let row := s.payment.apply (transitionData next opts)
    (some row, { s with
      payment := row
      auditEvents := s.auditEvents ++ [transitionRecord s.payment.id status next opts] })
  else (none, s)

/-- The upsert of the reservation, under the lease. -/
def State.reserve (s : State) (leaseId now : ℕ) (asset : AssetSymbol) (network : Network)
    (amount : String) : Bool × State :=
  if s.payment.status = .approved ∧ s.payment.executionLeaseId = some leaseId then
    (true, { s with
      payment := s.payment.apply { leasedAt := some (some now) }
      reservation := some ⟨asset, network, amount, .reserved⟩ })
  else (false, s)

/-- The receipt of a transaction on a network, once it is mined. -/
def State.receipt (s : State) (network : Network) (hash : Hash) : Option Receipt :=
  match s.txs[hash]? with
  | some tx => if tx.network = network then tx.receipt else none
  | none => none

/-- What a statement that does not fail answers and does. `none`: it cannot be answered
yet. -/
def Stmt.perform : (o : Stmt) → Choice → State → Option (Except Err o.Result × State)
  | .findPayment, _, s => some (.ok s.payment, s)
  | .claimLease leaseId status, c, s =>
    if s.payment.status = status ∧ s.payment.executionLeaseId = none then
      some (.ok true, { s with
        payment := s.payment.apply
          { executionLeaseId := some (some leaseId), leasedAt := some (some c.now) } })
    else some (.ok false, s)
  | .releaseLease leaseId, _, s =>
    if s.payment.executionLeaseId = some leaseId then
      some (.ok (), { s with
        payment := s.payment.apply { executionLeaseId := some none, leasedAt := some none } })
    else some (.ok (), s)
  | .updatePayment data, _, s =>
    let row := s.payment.apply data
    some (.ok row, { s with payment := row })
  | .transition status next opts, _, s =>
    some (.ok (s.transition status next opts).1, (s.transition status next opts).2)
  | .reserve leaseId asset network amount, c, s =>
    let r := s.reserve leaseId c.now asset network amount
    some (.ok r.1, r.2)
  | .updateReservation status, _, s =>
    match s.reservation with
    | some r => some (.ok (), { s with reservation := some { r with status := status } })
    | none => some (.error (.error "No record was found for an update."), s)
  | .findLedgerCredit, _, s => some (.ok s.ledgerCredits.head?, s)
  | .createLedgerCredit credit, _, s =>
    -- the unique key on the payment
    if s.ledgerCredits.isEmpty then some (.ok (), { s with ledgerCredits := [credit] })
    else some (.error (.error "Unique constraint failed on the fields: (paymentId)"), s)
  | .createComplianceChecks checks, _, s =>
    some (.ok (), { s with complianceChecks := s.complianceChecks ++ checks })
  | .audit record, _, s => some (.ok (), { s with auditEvents := s.auditEvents ++ [record] })
  | .screen _ _, c, s => some (.ok c.screening, s)
  | .freeTreasuryBalance _ _, c, s => some (.ok c.treasury, s)
  | .parkedBalance _ _, c, s => some (.ok c.amount, s)
  | .recallForPayment _ _ _, c, s =>
    match c.recallFault with
    | some e => some (.error e, s)
    | none => some (.ok (), s)
  | .allowance _ _ _ _, c, s => some (.ok c.amount, s)
  | .writeContract network call, _, s =>
    some (.ok s.txs.length, { s with txs := s.txs ++ [⟨network, call, none⟩] })
  | .waitForTransactionReceipt network hash, _, s =>
    match s.receipt network hash with
    | some receipt => some (.ok receipt, s)
    | none => none
  | .getTransactionReceipt network hash, _, s =>
    match s.receipt network hash with
    | some receipt => some (.ok (some receipt), s)
    | none => some (.error (.node "Transaction receipt could not be found."), s)
  | .getPayment network, _, s => some (.ok (s.escrow network), s)

/-- One statement: it fails, or it is performed. -/
def Stmt.exec (o : Stmt) (c : Choice) (s : State) : Option (Except Err o.Result × State) :=
  match c.fails with
  | some message => some (.error (o.fault message), s)
  | none => o.perform c s

/-- The contract accepts a call when its guard holds and nothing inside it fails. -/
def Tx.succeeds (tx : Tx) (accepted : Bool) (s : State) : Bool :=
  accepted && tx.call.kind.admitted (s.escrow tx.network)

/-- A pending transaction is mined. -/
def Mining.exec : Mining → State → Option State
  | .mine hash accepted blockNumber gasUsed, s =>
    match s.txs[hash]? with
    | some ⟨network, call, none⟩ =>
      let success := Tx.succeeds ⟨network, call, none⟩ accepted s
      some { s with
        txs := s.txs.set hash ⟨network, call, some ⟨success, blockNumber, gasUsed⟩⟩
        escrow := if success then
            Function.update s.escrow network (call.kind.effect (s.escrow network))
          else s.escrow }
    | _ => none

end SettlementOS.Model
