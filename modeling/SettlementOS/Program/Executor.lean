import SettlementOS.Program.Routing

/-!
# The executor (`lib/executor.ts`)

An execution drives an approved payment through reservation, escrow, settlement and payout
under its lease; a repair sends a compensation again; a reconcile advances a payment on
what the chains say and sends nothing.

Inside a `try` the local row is reassigned as the attempt goes on, and the `catch` sees it
as it was at the throw. So the body of a `try` throws pairs: the error and the local row.
The injection points of the tests are left out: nothing arms them outside the test runner.
-/

set_option autoImplicit false

namespace SettlementOS.Program

open SettlementOS.Computation Model

/-- `selectedRoute`. -/
def selectedRoute (payment : Payment) : Except Err RouteOption :=
  match payment.quoteJson with
  | none => .error (.error "Payment has no quote")
  | some routes =>
    match (routes.find? fun r => some r.routeId = payment.selectedRouteId) <|> routes.head? with
    | some route => .ok route
    | none => .error (.error "No route available on quote")

/-- `s.slice(0, 200)`. -/
def slice200 (s : String) : String := String.ofList (s.toList.take 200)

/-- The evidence a payment is completed on. -/
inductive Evidence where
  | destinationTxHash
  | ledgerCredit
  deriving DecidableEq, Repr

/-- The evidence as events spell it. -/
def Evidence.name : Evidence → String
  | .destinationTxHash => "destination_tx_hash"
  | .ledgerCredit => "ledger_credit"

/-! ## Completing a payment whose recipient was paid -/

/-- Credit the recipient's ledger, and record it. -/
def creditRecipient (payment : Payment) (destAmount : String) : Saga Unit := do
  call (.createLedgerCredit ⟨payment.recipientId, payment.destinationCurrency, destAmount⟩)
  audit "payout.ledger_credit"
    [("entityId", .str payment.recipientId), ("currency", .str payment.destinationCurrency),
      ("amount", .str destAmount)] payment.id

/-- Credit the recipient's ledger unless it was credited. -/
def creditOnce (payment : Payment) (destAmount : String) : Saga Unit := do
  match ← call .findLedgerCredit with
  | some _ => return ()
  | none => creditRecipient payment destAmount

/-- `completeSettledPayout`. -/
def completeSettledPayout (payment : Payment) (destAmount reason : String)
    (evidence : Evidence) : Saga Payment := do
  creditOnce payment destAmount
  (call (.updateReservation .consumed)).ignoring
  audit "payment.settlement_recovered"
    [("note", .str "recipient already paid; completed forward"),
      ("branch", .str "forward_complete"), ("evidence", .str evidence.name),
      ("destinationTxHash", .ofHash payment.destinationTxHash),
      ("recoveredFrom", .str (slice200 reason))] payment.id
  setStatus payment .settled { destinationTxHash := payment.destinationTxHash } []

/-- `reconcileDestinationPayout`. -/
def reconcileDestinationPayout (payment : Payment) (destNet : Network)
    (destAmount reason : String) : Saga (Option Payment) :=
  match payment.destinationTxHash with
  | none => return none
  | some hash => do
    match ← transactionOutcome destNet hash with
    | .confirmed =>
      let completed ← completeSettledPayout payment destAmount reason .destinationTxHash
      return some completed
    | .unknown =>
      audit "payment.destination_payout_unresolved"
        [("network", .str destNet), ("txHash", .hash hash),
          ("note", .str "destination receipt unreadable — operator action required")] payment.id
      return some payment
    | .absent => return none
    | .reverted => return none

/-! ## Compensation -/

/-- `CompensationContext`. -/
structure CompensationContext where
  reason : String
  network : Network
  tokenSymbol : AssetSymbol
  amount : String
  amountUnits : ℕ
  sender : String
  deriving DecidableEq, Repr

/-- `compensationContextFor`. -/
def compensationContextFor (env : Env) (payment : Payment) : Except Err CompensationContext := do
  let network := payment.sourceNetwork
  let asset ← assetForCurrency payment.sourceCurrency
  let contracts ← env.contracts network
  let token := contracts.tokens asset.symbol
  match walletOnNetwork env.sender.wallets network with
  | none => .error (.error "Sender has no registered wallet")
  | some senderWallet =>
    let decimals ← Env.decimalsOf token
    let amountUnits ← toBaseUnits payment.amount decimals
    return {
      reason := payment.failureReason.getD "destination leg failed after settlement"
      network := network
      tokenSymbol := asset.symbol
      amount := payment.amount
      amountUnits := amountUnits
      sender := senderWallet.address }

/-- What every event of a compensation says about the transfer. -/
def CompensationContext.detail (ctx : CompensationContext) (hash : Hash) : Detail :=
  [("network", .str ctx.network), ("asset", .str ctx.tokenSymbol.name),
    ("amount", .str ctx.amount), ("amountUnits", .str (toString ctx.amountUnits)),
    ("to", .str ctx.sender), ("txHash", .hash hash)]

/-- `completeCompensationFromConfirmed`, with the hash the row carries. -/
def completeCompensationFromConfirmed (compensating : Payment) (ctx : CompensationContext)
    (hash : Hash) : Saga Payment := do
  audit "payment.compensation_recovered"
    (ctx.detail hash ++ [("evidence", .str "compensation_tx_hash"),
      ("note", .str
        "prior compensation attempt confirmed — marking COMPENSATED without re-transfer")])
    compensating.id
  transitionStatus compensating .compensated
    { data := { compensationTxHash := some hash }
      detail := [("network", .str ctx.network), ("txHash", .hash hash),
        ("evidence", .str "compensation_tx_hash")] }

/-- The body of the `try` of `runCompensationTransfer`. -/
def sendCompensation (env : Env) (compensating : Payment) (ctx : CompensationContext) :
    Prog sagaEffects (Err × Payment) Payment := do
  let hash ← (treasuryTokenTransfer env .compensation ctx.network ctx.tokenSymbol ctx.sender
    ctx.amountUnits).keeping compensating
  -- the attempt is on the local row before any further statement
  let compensating := { compensating with compensationTxHash := some hash }
  let compensating ← (call (.updatePayment { compensationTxHash := some hash })).keeping
    compensating
  (audit "payment.compensation_submitted" (ctx.detail hash) compensating.id).keeping compensating
  let _ ← (confirm ctx.network hash).keeping compensating
  (audit "payment.compensation_transfer" (ctx.detail hash) compensating.id).keeping compensating
  (transitionStatus compensating .compensated
    { data := { compensationTxHash := some hash }
      detail := [("network", .str ctx.network), ("txHash", .hash hash)] }).keeping compensating

/-- The event of a compensation that did not go through. -/
def compensationFailed (compensating : Payment) (ctx : CompensationContext) (err : Err) :
    Saga Payment := do
  audit "payment.compensation_failed"
    ([("network", .str ctx.network), ("asset", .str ctx.tokenSymbol.name),
      ("amount", .str ctx.amount), ("reason", .str err.message)] ++
      (compensating.compensationTxHash.map fun h => ("txHash", Json.hash h)).toList)
    compensating.id
  return compensating

/-- Where persisting the hash is what failed, try once more, so that a later repair can see
it. -/
def persistIfMissing (hash : Hash) : Saga Unit := do
  let row ← call .findPayment
  match row.compensationTxHash with
  | some _ => return ()
  | none => (call (.updatePayment { compensationTxHash := some hash })).ignoring

/-- The `catch` of `runCompensationTransfer`. -/
def recoverCompensation (ctx : CompensationContext) (e : Err × Payment) : Saga Payment :=
  match e.2.compensationTxHash with
  | none => compensationFailed e.2 ctx e.1
  | some hash => do
    persistIfMissing hash
    match ← transactionOutcome ctx.network hash with
    | .confirmed => completeCompensationFromConfirmed e.2 ctx hash
    | _ => compensationFailed e.2 ctx e.1

/-- `runCompensationTransfer`. -/
def runCompensationTransfer (env : Env) (compensating : Payment) (ctx : CompensationContext) :
    Saga Payment :=
  let transfer := (sendCompensation env compensating ctx).handle (recoverCompensation ctx)
  match compensating.compensationTxHash with
  | none => transfer
  | some hash => do
    match ← transactionOutcome ctx.network hash with
    | .confirmed => completeCompensationFromConfirmed compensating ctx hash
    | .unknown =>
      audit "payment.compensation_unresolved"
        [("network", .str ctx.network), ("txHash", .hash hash),
          ("note", .str "compensation receipt unreadable — operator action required")]
        compensating.id
      throw (conflict "compensation outcome unresolved — cannot transfer safely")
    | .reverted => transfer
    | .absent => transfer

/-- `compensateSender`. -/
def compensateSender (env : Env) (payment : Payment) (ctx : CompensationContext) :
    Saga Payment := do
  let compensating ← transitionStatus payment .compensationPending
    { data := { failureReason := some ctx.reason }
      detail := [("network", .str ctx.network), ("asset", .str ctx.tokenSymbol.name),
        ("amount", .str ctx.amount), ("escrowState", .str "SETTLED")] }
  runCompensationTransfer env compensating ctx

/-! ## Execution -/

/-- What an execution works out before its first statement. -/
structure Plan where
  route : RouteOption
  sourceNet : Network
  destNet : Network
  sourceAsset : AssetInfo
  destAsset : AssetInfo
  /-- undefined when the source network does not have the token -/
  sourceToken : Option Token
  destAmount : String
  senderWallet : Wallet
  recipientWallet : Wallet

/-- The opening lines of `runExecution`. -/
def Plan.make (env : Env) (payment : Payment) : Except Err Plan := do
  let route ← selectedRoute payment
  let sourceNet := route.sourceNetwork
  let destNet := route.destinationNetwork
  let sourceAsset ← assetForCurrency payment.sourceCurrency
  let destAsset ← assetForCurrency payment.destinationCurrency
  let contracts ← env.contracts sourceNet
  match walletOnNetwork env.sender.wallets sourceNet,
      walletOnNetwork env.recipient.wallets destNet with
  | some senderWallet, some recipientWallet =>
    return {
      route := route
      sourceNet := sourceNet
      destNet := destNet
      sourceAsset := sourceAsset
      destAsset := destAsset
      sourceToken := contracts.tokens sourceAsset.symbol
      destAmount := route.estimatedDestinationAmount
      senderWallet := senderWallet
      recipientWallet := recipientWallet }
  | _, _ => .error (.error "Sender and recipient must have registered wallets")

/-- `isCrossChain`. -/
def Plan.isCrossChain (plan : Plan) : Bool := plan.sourceNet ≠ plan.destNet

/-- The route decides the destination network: it is written to the row when it differs. -/
def alignDestination (payment : Payment) (destNet : Network) : Saga Payment :=
  if payment.destinationNetwork ≠ destNet then
    call (.updatePayment { destinationNetwork := some destNet })
  else return payment

/-- Whether a failed recall is one that step 1 will judge. -/
def insufficientFreeBalance : Err → Bool
  | .treasury code _ => code == .insufficientFreeBalance
  | _ => false

/-- Fail a payment for a reason, and throw it. -/
def failWith (payment : Payment) (failureReason : String) : Saga Unit := do
  let _ ← setStatus payment .failed { failureReason := some failureReason } []
  throw (.error failureReason)

/-- Step 0: recall what is parked when free liquidity is short. -/
def autoRecall (env : Env) (payment : Payment) (plan : Plan) : Saga Unit := do
  let symbol := plan.destAsset.symbol
  let liqBefore ← availableLiquidity env symbol plan.destNet
  let neededUnits ← lift (destinationUnits plan.destAmount liqBefore.decimals)
  if liqBefore.availableUnits < neededUnits then
    let parked ← call (.parkedBalance plan.destNet symbol)
    if 0 < parked then
      (call (.recallForPayment plan.destNet symbol plan.destAmount)).handle fun err =>
        if insufficientFreeBalance err then .ret ()
        else do
          (call (.updateReservation .released)).ignoring
          failWith payment
            s!"Auto-recall of parked {symbol.name} on {plan.destNet} failed: {err.message}"
    else return ()
  else return ()

/-- Step 1, the check: a payment whose destination liquidity is short fails. -/
def checkLiquidity (env : Env) (payment : Payment) (plan : Plan) : Saga Unit := do
  let symbol := plan.destAsset.symbol
  let liq ← availableLiquidity env symbol plan.destNet
  let neededUnits ← lift (destinationUnits plan.destAmount liq.decimals)
  if liq.availableUnits < neededUnits then
    failWith payment (s!"Insufficient {symbol.name} liquidity on {plan.destNet}: " ++
      s!"need {plan.destAmount}, available {liq.available}")
  else return ()

/-- Step 1, the reservation: it is written under the lease, which is asserted again. -/
def reserveLiquidity (leaseId : ℕ) (payment : Payment) (plan : Plan) : Saga Unit := do
  let held ← call (.reserve leaseId plan.destAsset.symbol plan.destNet plan.destAmount)
  if held then return () else throw (.executionLease payment.id)

/-- The sender's allowance, and the event of a new one. -/
def grantAllowance (env : Env) (plan : Plan) (amountUnits : ℕ) (payment : Payment) :
    Saga Unit := do
  match ← ensureSenderAllowance env plan.sourceNet env.sender.externalId
      plan.sourceAsset.symbol amountUnits with
  | none => return ()
  | some tx =>
    let contracts ← lift (env.contracts plan.sourceNet)
    audit "payment.allowance_granted"
      [("network", .str plan.sourceNet), ("asset", .str plan.sourceAsset.symbol.name),
        ("amount", .str payment.amount), ("amountUnits", .str (toString amountUnits)),
        ("spender", .str contracts.paymentSettlement), ("txHash", .hash tx.hash)]
      payment.id

/-- Step 2: the sender's allowance, then the escrow. -/
def escrowLeg (env : Env) (plan : Plan) (pid : String) (amountUnits : ℕ) (payment : Payment) :
    Prog sagaEffects (Err × Payment) (Payment × TxResult) := do
  (grantAllowance env plan amountUnits payment).keeping payment
  let asset ← (lift (Env.addressOf plan.sourceToken)).keeping payment
  let initTx ← (operatorWrite env plan.sourceNet (.initiatePayment pid
    plan.senderWallet.address plan.recipientWallet.address asset amountUnits
    payment.sourceCurrency payment.destinationCurrency)).keeping payment
  let payment ← (setStatus payment .submittedOnchain
    { txHash := some initTx.hash, onchainPaymentId := some pid }
    [("network", .str plan.sourceNet)]).keeping payment
  return (payment, initTx)

/-- Steps 3 and 4: confirmation, then the release of the escrow to the treasury. -/
def settlementLeg (env : Env) (plan : Plan) (pid : String) (initTx : TxResult)
    (payment : Payment) : Prog sagaEffects (Err × Payment) (Payment × ℕ) := do
  let payment ← (setStatus payment .confirmedOnchain {}
    [("network", .str plan.sourceNet), ("blockNumber", .str (toString initTx.blockNumber)),
      ("gasUsed", .str (toString initTx.gasUsed))]).keeping payment
  let contracts ← (lift (env.contracts plan.destNet)).keeping payment
  let decimals ← (lift (Env.decimalsOf (contracts.tokens plan.destAsset.symbol))).keeping payment
  let settledUnits ← (lift (toBaseUnits plan.destAmount decimals)).keeping payment
  let accounts ← (lift (env.accountsFor plan.sourceNet)).keeping payment
  let settleTx ← (operatorWrite env plan.sourceNet (.settlePayment pid
    (env.keccak256 plan.route.routeId) accounts.treasury settledUnits
    plan.destAsset.symbol)).keeping payment
  let payment ← (setStatus payment .fxOrSwapCompleted
    { settleTxHash := some settleTx.hash
      fxRate := some plan.route.estimatedFxRate
      destinationAmount := some plan.destAmount }
    [("network", .str plan.sourceNet)]).keeping payment
  return (payment, settledUnits)

/-- What the events of the bridge leg say. -/
def Plan.payoutDetail (plan : Plan) (hash : Hash) : Detail :=
  [("network", .str plan.destNet), ("asset", .str plan.destAsset.symbol.name),
    ("amount", .str plan.destAmount), ("to", .str plan.recipientWallet.address),
    ("txHash", .hash hash)]

/-- The payout of step 5 across networks: the treasury pays the recipient on the destination
network. -/
def bridgeLeg (env : Env) (plan : Plan) (settledUnits : ℕ) (payment : Payment) :
    Prog sagaEffects (Err × Payment) Payment := do
  let hash ← (treasuryTokenTransfer env .destinationPayout plan.destNet plan.destAsset.symbol
    plan.recipientWallet.address settledUnits).keeping payment
  -- the attempt is on the local row before any further statement
  let payment := { payment with destinationTxHash := some hash }
  let payment ← (call (.updatePayment { destinationTxHash := some hash })).keeping payment
  (audit "bridge.destination_payout_submitted" (plan.payoutDetail hash) payment.id).keeping
    payment
  let _ ← (confirm plan.destNet hash).keeping payment
  (audit "bridge.destination_payout" (plan.payoutDetail hash) payment.id).keeping payment
  return payment

/-- The payout of step 5: only a route across networks has one. -/
def payRecipient (env : Env) (plan : Plan) (settledUnits : ℕ) (payment : Payment) :
    Prog sagaEffects (Err × Payment) Payment :=
  if plan.isCrossChain then bridgeLeg env plan settledUnits payment else .ret payment

/-- Steps 5 and 6: the payout leg, the ledger credit, and the end. -/
def payoutLeg (env : Env) (plan : Plan) (settledUnits : ℕ) (payment : Payment) :
    Prog sagaEffects (Err × Payment) Payment := do
  let payment ← (setStatus payment .payoutPending {} []).keeping payment
  let payment ← payRecipient env plan settledUnits payment
  (creditRecipient payment plan.destAmount).keeping payment
  (call (.updateReservation .consumed)).keeping payment
  (setStatus payment .settled {} []).keeping payment

/-- The body of the `try` of `runExecution`. -/
def settle (env : Env) (plan : Plan) (pid : String) (amountUnits : ℕ) (payment : Payment) :
    Prog sagaEffects (Err × Payment) Payment := do
  let (payment, initTx) ← escrowLeg env plan pid amountUnits payment
  let (payment, settledUnits) ← settlementLeg env plan pid initTx payment
  payoutLeg env plan settledUnits payment

/-- Where the escrow proves released, or the row does when it cannot be read. -/
def settledOnChain (escrow : Option OnchainPaymentState) (status : PaymentStatus) : Bool :=
  escrow == some .settled ||
    (escrow.isNone && (status == .fxOrSwapCompleted || status == .payoutPending))

/-- Where the escrow proves held, or the row does when it cannot be read. -/
def escrowHeld (escrow : Option OnchainPaymentState) (status : PaymentStatus) : Bool :=
  escrow == some .initiated ||
    (escrow.isNone && (status == .submittedOnchain || status == .confirmedOnchain))

/-- The last lines of the `catch`: the payment is `FAILED`, or is moved there. -/
def endFailed (payment : Payment) (reason : String) : Saga Payment :=
  if payment.status = .failed then return payment
  else setStatus payment .failed { failureReason := some reason } []

/-- The `try` around the on-chain refund. -/
def refundEscrow (env : Env) (sourceNet : Network) (pid reason : String) (payment : Payment) :
    Prog sagaEffects (Err × Payment) Payment := do
  let _ ← (operatorWrite env sourceNet (.failAndRefund pid (slice200 reason))).keeping payment
  (audit "payment.onchain_refund" [("network", .str sourceNet), ("reason", .str reason)]
    payment.id).keeping payment
  let payment ← (setStatus payment .failed { failureReason := some reason } []).keeping payment
  (setStatus payment .refunded {} []).keeping payment

/-- Refund the escrow; a refund that fails is recorded and the payment ends `FAILED`. -/
def refundOrFail (env : Env) (sourceNet : Network) (pid reason : String) (payment : Payment) :
    Saga Payment :=
  (refundEscrow env sourceNet pid reason payment).handle fun e => do
    audit "payment.refund_failed" [("reason", .str e.1.message)] e.2.id
    endFailed e.2 reason

/-- The `catch` once nobody is known to have been paid: undo what landed. -/
def undo (env : Env) (sourceNet : Network) (pid reason : String) (payment : Payment) :
    Saga Payment := do
  (call (.updateReservation .released)).ignoring
  let escrow ← readEscrow env sourceNet
  if settledOnChain escrow payment.status then
    let ctx ← lift (compensationContextFor env payment)
    compensateSender env payment { ctx with reason := reason }
  else if escrowHeld escrow payment.status then
    refundOrFail env sourceNet pid reason payment
  else endFailed payment reason

/-- The `catch` of `runExecution`. -/
def recover (env : Env) (plan : Plan) (pid : String) (e : Err × Payment) : Saga Payment := do
  let reason := e.1.message
  let payment := e.2
  match ← call .findLedgerCredit with
  | some _ => completeSettledPayout payment plan.destAmount reason .ledgerCredit
  | none =>
    match ← reconcileDestinationPayout payment plan.destNet plan.destAmount reason with
    | some reconciled => return reconciled
    | none => undo env plan.sourceNet pid reason payment

/-- `runExecution`. -/
def runExecution (env : Env) (leaseId : ℕ) (claimed : Payment) : Saga Payment := do
  let plan ← lift (Plan.make env claimed)
  let payment ← alignDestination claimed plan.destNet
  autoRecall env payment plan
  checkLiquidity env payment plan
  reserveLiquidity leaseId payment plan
  let payment ← setStatus payment .liquidityReserved {}
    [("reservedAmount", .str plan.destAmount), ("asset", .str plan.destAsset.symbol.name),
      ("network", .str plan.destNet)]
  let pid := env.onchainPaymentId payment.id
  -- outside the `try`: what these two throw is not recovered from
  let decimals ← lift (Env.decimalsOf plan.sourceToken)
  let amountUnits ← lift (toBaseUnits payment.amount decimals)
  (settle env plan pid amountUnits payment).handle (recover env plan pid)

/-- `executePayment`. -/
def executePayment (env : Env) (leaseId : ℕ) : Saga Payment := do
  let payment ← call .findPayment
  if payment.status = .approved then
    withExecutionLease payment.id leaseId .approved
      (runExecution env leaseId { payment with executionLeaseId := some leaseId })
  else throw (.error s!"Payment must be APPROVED to execute (current: {payment.status.name})")

/-! ## Repair and reconcile -/

/-- A repair pays nobody whose payout may have landed. -/
def refusePaidRecipient (payment : Payment) : Saga Unit :=
  match payment.destinationTxHash with
  | none => return ()
  | some hash => do
    match ← transactionOutcome payment.destinationNetwork hash with
    | .confirmed => throw (conflict "destination payout already confirmed — compensation refused")
    | .unknown =>
      throw (conflict "destination payout outcome unresolved — cannot compensate safely")
    | .absent => return ()
    | .reverted => return ()

/-- The leased section of `repairCompensation`. -/
def repairLeased (env : Env) (leaseId : ℕ) (payment : Payment) : Saga Payment := do
  let ctx ← lift (compensationContextFor env payment)
  refusePaidRecipient payment
  match ← readEscrow env ctx.network with
  | none => throw (conflict "source network unreachable — escrow state could not be confirmed")
  | some escrow =>
    if escrow = .settled then
      runCompensationTransfer env { payment with executionLeaseId := some leaseId } ctx
    else throw (conflict
      "source escrow was not released — this payment is not owed compensation")

/-- `repairCompensation`. -/
def repairCompensation (env : Env) (leaseId : ℕ) : Saga Payment := do
  let payment ← call .findPayment
  if payment.status = .compensated then return payment
  else if payment.status = .compensationPending then
    withExecutionLease payment.id leaseId .compensationPending (repairLeased env leaseId payment)
  else throw (conflict s!"payment cannot be repaired from status {payment.status.name}")

/-- `PaymentReconcileAction`. -/
inductive ReconcileAction where
  | completedForward
  | awaitingCompensation
  | markedCompensated
  | unchanged
  deriving DecidableEq, Repr

/-- `PaymentReconcileResult`. -/
structure ReconcileResult where
  payment : Payment
  outcome : TransactionOutcome
  action : ReconcileAction
  deriving DecidableEq, Repr

/-- The reconcile of a payout that is proved not to have landed: enter the state a repair
starts from, and send nothing. -/
def awaitCompensation (leased : Payment) (hash : Hash) (outcome : TransactionOutcome) :
    Saga ReconcileResult := do
  (call (.updateReservation .released)).ignoring
  let pending ← transitionStatus leased .compensationPending
    { data :=
        { failureReason := some s!"destination payout {outcome.name} — awaiting compensation" }
      detail := [("network", .str leased.destinationNetwork), ("txHash", .hash hash),
        ("evidence", .str s!"destination_tx_{outcome.name}"),
        ("note", .str "operator reconcile — no compensation transfer sent; use repair")] }
  return ⟨pending, outcome, .awaitingCompensation⟩

/-- `payment.destinationAmount ?? selectedRoute(payment).estimated_destination_amount`. -/
def owedAmount (payment : Payment) : Except Err String :=
  match payment.destinationAmount with
  | some amount => .ok amount
  | none => (selectedRoute payment).map RouteOption.estimatedDestinationAmount

/-- The leased section of a reconcile at `PAYOUT_PENDING`. -/
def reconcilePayout (payment : Payment) (hash : Hash) : Saga ReconcileResult := do
  match ← transactionOutcome payment.destinationNetwork hash with
  | .confirmed =>
    let destAmount ← lift (owedAmount payment)
    let completed ← completeSettledPayout payment destAmount "operator reconcile"
      .destinationTxHash
    return ⟨completed, .confirmed, .completedForward⟩
  | .reverted => awaitCompensation payment hash .reverted
  | .absent => awaitCompensation payment hash .absent
  | .unknown =>
    audit "payment.destination_payout_unresolved"
      [("network", .str payment.destinationNetwork), ("txHash", .hash hash),
        ("note", .str "operator reconcile — destination receipt still unreadable")] payment.id
    return ⟨payment, .unknown, .unchanged⟩

/-- The reconcile of a compensation that is proved not to have landed: record it. -/
def compensationNotConfirmed (payment : Payment) (ctx : CompensationContext) (hash : Hash)
    (outcome : TransactionOutcome) : Saga ReconcileResult := do
  audit "payment.compensation_attempt_not_confirmed"
    [("network", .str ctx.network), ("txHash", .hash hash), ("outcome", .str outcome.name),
      ("note", .str
        "operator reconcile — prior attempt not confirmed; use repair to re-send")] payment.id
  return ⟨payment, outcome, .unchanged⟩

/-- The leased section of a reconcile at `COMPENSATION_PENDING`. -/
def reconcileCompensation (env : Env) (payment : Payment) (hash : Hash) :
    Saga ReconcileResult := do
  let ctx ← lift (compensationContextFor env payment)
  match ← transactionOutcome ctx.network hash with
  | .confirmed =>
    let completed ← completeCompensationFromConfirmed payment ctx hash
    return ⟨completed, .confirmed, .markedCompensated⟩
  | .unknown =>
    audit "payment.compensation_unresolved"
      [("network", .str ctx.network), ("txHash", .hash hash),
        ("note", .str "operator reconcile — compensation receipt still unreadable")] payment.id
    return ⟨payment, .unknown, .unchanged⟩
  | .reverted => compensationNotConfirmed payment ctx hash .reverted
  | .absent => compensationNotConfirmed payment ctx hash .absent

/-- `reconcileUnresolvedPayment`. -/
def reconcileUnresolvedPayment (env : Env) (leaseId : ℕ) : Saga ReconcileResult := do
  let payment ← call .findPayment
  let leased := { payment with executionLeaseId := some leaseId }
  match payment.status with
  | .settled => return ⟨payment, .confirmed, .unchanged⟩
  | .compensated => return ⟨payment, .confirmed, .unchanged⟩
  | .payoutPending =>
    match payment.destinationTxHash with
    | none => throw (conflict "no destination payout attempt to reconcile")
    | some hash =>
      withExecutionLease payment.id leaseId .payoutPending (reconcilePayout leased hash)
  | .compensationPending =>
    match payment.compensationTxHash with
    | none => throw (conflict
        "no compensation attempt to reconcile — use repair to send a transfer")
    | some hash =>
      withExecutionLease payment.id leaseId .compensationPending
        (reconcileCompensation env leased hash)
  | status => throw (conflict s!"payment cannot be reconciled from status {status.name}")

end SettlementOS.Program
