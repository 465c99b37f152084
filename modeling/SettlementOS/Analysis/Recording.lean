import SettlementOS.Program.Requests

/-!
# What the log is told

The log is told of two kinds of records: that a status has changed, which only the transaction of
the change does, and that the recipient was credited, which only follows a credit. Here it is
listed, function by function, that nothing else tells it either, and that no other statement
changes a status.
-/

set_option autoImplicit false

namespace SettlementOS.Analysis

open SettlementOS.Computation Model Program

/-- An event that says between which statuses a change was. -/
def recordsStatus (r : AuditRecord) : Bool := r.detail.head?.any fun kv => kv.1 == "from"

/-- An event that says the recipient was credited. -/
def recordsCredit (r : AuditRecord) : Bool := r.action == "payout.ledger_credit"

/-- A status change whose columns leave the status alone and whose event is not that of a credit. -/
def PlainChange (next : PaymentStatus) (opts : TransitionOpts) : Prop :=
  opts.data.status = none ∧
    (opts.action.getD ("payment.status." ++ next.lowerName) == "payout.ledger_credit") = false

/-- A statement that neither credits the recipient nor says so; a status it changes only with its
event and along the lifecycle, and says of it nowhere else. -/
def Mundane : Stmt → Prop
  | .audit r => (recordsStatus r || recordsCredit r) = false
  | .updatePayment data => data.status = none
  | .transition status next opts => canTransition status next = true ∧ PlainChange next opts
  | .createLedgerCredit _ => False
  | _ => True

variable {env : Env} {α : Type}

/-- A mundane statement is performed, and its answer is returned or thrown. -/
theorem mundane_call {o : Stmt} (h : Mundane o) : (call o).Uses Mundane :=
  ⟨h, fun r => Prog.uses_ofExcept r⟩

/-- Whether a statement writes an event, a column of the payment or a credit. -/
def writesRecord : Stmt → Bool
  | .audit _ | .updatePayment _ | .transition .. | .createLedgerCredit _ => true
  | _ => false

/-- A statement that writes no record is mundane. -/
theorem mundane_of_plain {o : Stmt} (h : writesRecord o = false) : Mundane o := by
  cases o <;> trivial

/-- A statement that writes no record may be performed. -/
theorem mundane_plain {o : Stmt} (h : writesRecord o = false) : (call o).Uses Mundane :=
  mundane_call (mundane_of_plain h)

/-- Columns other than the status may be written. -/
theorem mundane_updatePayment (data : PaymentPatch) (h : data.status = none) :
    (call (.updatePayment data)).Uses Mundane := mundane_call h

/-- To throw or to go on with a value is mundane. -/
theorem mundane_lift (x : Except Err α) : (lift x).Uses Mundane := Prog.uses_ofExcept x

/-- An event that says nothing of the status or of a credit may be written. -/
theorem mundane_audit {action : String} {detail : Detail} {id : String}
    (h : (recordsStatus ⟨action, "system", some id, detail⟩ ||
      recordsCredit ⟨action, "system", some id, detail⟩) = false) :
    (audit action detail id).Uses Mundane := mundane_call h

/-- The action of a status change is not that of a credit. -/
theorem status_action (next : PaymentStatus) :
    ("payment.status." ++ next.lowerName == "payout.ledger_credit") = false := by
  cases next <;> rfl

/-- A status change that keeps its event's usual name is plain. -/
theorem plainChange_unnamed {next : PaymentStatus} {opts : TransitionOpts}
    (hd : opts.data.status = none) (ha : opts.action = none) : PlainChange next opts := by
  refine ⟨hd, ?_⟩
  rw [ha]
  exact status_action next

/-- A plain status change is mundane. -/
theorem mundane_transitionStatus (p : Payment) {next : PaymentStatus} {opts : TransitionOpts}
    (h : PlainChange next opts) : (transitionStatus p next opts).Uses Mundane := by
  unfold transitionStatus
  split
  · rename_i hcan
    have hmundane : Mundane (.transition p.status next opts) := ⟨hcan, h⟩
    apply Prog.Uses.bind (mundane_call hmundane)
    intro r
    cases r <;> trivial
  · trivial

/-- So is one that writes columns along with it. -/
theorem mundane_setStatus (p : Payment) (next : PaymentStatus) {data : PaymentPatch}
    (detail : Detail) (h : data.status = none) : (setStatus p next data detail).Uses Mundane :=
  mundane_transitionStatus p (plainChange_unnamed h rfl)

/-! ## Calls to a node -/

/-- Waiting for a receipt is mundane. -/
theorem mundane_confirm (network : Network) (hash : Hash) :
    (confirm network hash).Uses Mundane := by
  apply Prog.Uses.bind (mundane_plain rfl)
  intro receipt
  split <;> trivial

/-- Asking for a transaction's outcome is mundane. -/
theorem mundane_transactionOutcome (network : Network) (hash : Hash) :
    (transactionOutcome network hash).Uses Mundane :=
  Prog.Uses.handle (Prog.Uses.bind (mundane_plain rfl) fun _ => trivial) fun _ => trivial

/-- Reading the escrow is mundane. -/
theorem mundane_readEscrow (network : Network) : (readEscrow env network).Uses Mundane :=
  Prog.Uses.handle (Prog.Uses.bind (mundane_lift _) fun _ =>
    Prog.Uses.bind (mundane_plain rfl) fun _ => trivial) fun _ => trivial

/-- Trying again is as mundane as trying once. -/
theorem mundane_retryOnReplicaLag {fn : Saga α} (h : fn.Uses Mundane)
    (isTransient : String → Bool) (retries : ℕ) :
    (retryOnReplicaLag fn isTransient retries).Uses Mundane := by
  induction retries with
  | zero => exact h
  | succ retries ih =>
    apply Prog.Uses.handle h
    intro err
    split
    · exact ih
    · trivial

/-- An operator's write is mundane. -/
theorem mundane_operatorWrite (network : Network) (c : Call) :
    (operatorWrite env network c).Uses Mundane := by
  apply Prog.Uses.bind (mundane_lift _)
  intro _
  apply Prog.Uses.bind (mundane_lift _)
  intro retries
  apply Prog.Uses.bind (mundane_retryOnReplicaLag (Prog.Uses.bind (mundane_lift _) fun _ =>
    mundane_plain rfl) _ _)
  intro hash
  exact mundane_confirm network hash

/-- Raising the allowance is mundane. -/
theorem mundane_ensureSenderAllowance (network : Network) (id : String) (symbol : AssetSymbol)
    (amount : ℕ) : (ensureSenderAllowance env network id symbol amount).Uses Mundane := by
  refine Prog.Uses.bind (mundane_lift _) fun contracts => Prog.Uses.bind (mundane_lift _)
    fun token => Prog.Uses.bind (mundane_lift _) fun accounts => ?_
  split
  · trivial
  · apply Prog.Uses.bind (mundane_plain rfl)
    intro allowed
    split
    · trivial
    · exact Prog.Uses.bind (mundane_plain rfl) fun _ =>
        Prog.Uses.bind (mundane_confirm _ _) fun _ => trivial

/-- A transfer of the treasury is mundane. -/
theorem mundane_treasuryTokenTransfer (leg : Leg) (network : Network) (symbol : AssetSymbol)
    (recipient : String) (amount : ℕ) :
    (treasuryTokenTransfer env leg network symbol recipient amount).Uses Mundane :=
  Prog.Uses.bind (mundane_lift _) fun _ => Prog.Uses.bind (mundane_lift _) fun _ =>
    Prog.Uses.bind (mundane_lift _) fun _ => mundane_plain rfl

/-! ## Liquidity -/

/-- Reading the liquidity is mundane. -/
theorem mundane_availableLiquidity (symbol : AssetSymbol) (network : Network) :
    (availableLiquidity env symbol network).Uses Mundane := by
  unfold availableLiquidity
  split
  · trivial
  · exact Prog.Uses.bind (mundane_lift _) fun _ =>
      Prog.Uses.bind (mundane_plain rfl) fun _ => trivial

/-- So is checking it. -/
theorem mundane_liquidityCheck (symbol : AssetSymbol) (network : Network) (needed : String) :
    (liquidityCheck env symbol network needed).Uses Mundane := by
  unfold liquidityCheck
  split
  · refine Prog.Uses.handle (Prog.Uses.bind (mundane_availableLiquidity _ _) fun _ =>
      Prog.Uses.bind (mundane_lift _) fun _ => ?_) fun e => ?_
    · split
      · trivial
      · apply Prog.Uses.bind (mundane_plain rfl)
        intro parked
        split <;> trivial
    · split <;> trivial
  · trivial

/-- Quoting the routes is mundane. -/
theorem mundane_quoteRoutes : (quoteRoutes env).Uses Mundane := by
  refine Prog.Uses.bind (mundane_plain rfl) fun _ =>
    Prog.Uses.bind (mundane_lift _) fun _ => Prog.Uses.bind (mundane_lift _) fun _ =>
    Prog.Uses.bind (mundane_lift _) fun _ => Prog.Uses.bind (mundane_lift _) fun _ =>
    Prog.Uses.bind (mundane_lift _) fun _ => ?_
  dsimp only
  split
  · exact Prog.Uses.bind (mundane_lift _) fun _ =>
      Prog.Uses.bind (mundane_liquidityCheck _ _ _) fun _ =>
      Prog.Uses.bind (mundane_lift _) fun _ => trivial
  · exact Prog.Uses.bind (mundane_lift _) fun _ => Prog.Uses.bind (mundane_lift _) fun _ =>
      Prog.Uses.bind (mundane_lift _) fun _ => Prog.Uses.bind (mundane_lift _) fun _ =>
      Prog.Uses.bind (mundane_lift _) fun _ =>
      Prog.Uses.bind (mundane_liquidityCheck _ _ _) fun _ =>
      Prog.Uses.bind (mundane_liquidityCheck _ _ _) fun _ => trivial

/-- Failing with a reason is mundane. -/
theorem mundane_failWith (p : Payment) (reason : String) : (failWith p reason).Uses Mundane :=
  Prog.Uses.bind (mundane_setStatus _ _ _ rfl) fun _ => trivial

/-- The recall before an execution is mundane. -/
theorem mundane_autoRecall (p : Payment) (plan : Plan) : (autoRecall env p plan).Uses Mundane := by
  refine Prog.Uses.bind (mundane_availableLiquidity _ _) fun liquidity =>
    Prog.Uses.bind (mundane_lift _) fun needed => ?_
  split
  · apply Prog.Uses.bind (mundane_plain rfl)
    intro parked
    split
    · apply Prog.Uses.handle (mundane_plain rfl)
      intro e
      split
      · trivial
      · exact Prog.Uses.bind (mundane_plain rfl).ignoring fun _ => mundane_failWith _ _
    · trivial
  · trivial

/-- The check before the reservation is mundane. -/
theorem mundane_checkLiquidity (p : Payment) (plan : Plan) :
    (checkLiquidity env p plan).Uses Mundane := by
  refine Prog.Uses.bind (mundane_availableLiquidity _ _) fun liquidity =>
    Prog.Uses.bind (mundane_lift _) fun needed => ?_
  split
  · exact mundane_failWith _ _
  · trivial

/-- The reservation is mundane. -/
theorem mundane_reserveLiquidity (leaseId : ℕ) (p : Payment) (plan : Plan) :
    (reserveLiquidity leaseId p plan).Uses Mundane := by
  apply Prog.Uses.bind (mundane_plain rfl)
  intro held
  split <;> trivial

/-- The allowance of a plan is mundane. -/
theorem mundane_grantAllowance (plan : Plan) (amountUnits : ℕ) (p : Payment) :
    (grantAllowance env plan amountUnits p).Uses Mundane := by
  apply Prog.Uses.bind (mundane_ensureSenderAllowance _ _ _ _)
  intro tx
  split
  · trivial
  · exact Prog.Uses.bind (mundane_lift _) fun _ => mundane_audit rfl

/-! ## Undoing -/

/-- The end of a failed execution is mundane. -/
theorem mundane_endFailed (p : Payment) (reason : String) : (endFailed p reason).Uses Mundane := by
  unfold endFailed
  split
  · trivial
  · exact mundane_setStatus _ _ _ rfl

/-- A refund is mundane, whether it fails or not. -/
theorem mundane_refundOrFail (network : Network) (pid reason : String) (p : Payment) :
    (refundOrFail env network pid reason p).Uses Mundane := by
  apply Prog.Uses.handle
  · exact Prog.Uses.bind (mundane_operatorWrite _ _).keeping fun _ =>
      Prog.Uses.bind (mundane_audit rfl).keeping fun _ =>
      Prog.Uses.bind (mundane_setStatus _ _ _ rfl).keeping fun _ =>
      (mundane_setStatus _ _ _ rfl).keeping
  · intro e
    exact Prog.Uses.bind (mundane_audit rfl) fun _ => mundane_endFailed _ _

/-- Confirming a compensation is mundane. -/
theorem mundane_completeCompensation (p : Payment) (ctx : CompensationContext) (hash : Hash) :
    (completeCompensationFromConfirmed p ctx hash).Uses Mundane :=
  Prog.Uses.bind (mundane_audit rfl) fun _ =>
    mundane_transitionStatus _ (plainChange_unnamed rfl rfl)

/-- Noting that a compensation failed is mundane. -/
theorem mundane_compensationFailed (p : Payment) (ctx : CompensationContext) (err : Err) :
    (compensationFailed p ctx err).Uses Mundane :=
  Prog.Uses.bind (mundane_audit rfl) fun _ => trivial

/-- What becomes of a failed compensation is mundane. -/
theorem mundane_recoverCompensation (ctx : CompensationContext) (e : Err × Payment) :
    (recoverCompensation ctx e).Uses Mundane := by
  unfold recoverCompensation
  split
  · exact mundane_compensationFailed _ _ _
  · rename_i hash _
    have hpersist : (persistIfMissing hash).Uses Mundane := by
      apply Prog.Uses.bind (mundane_plain rfl)
      intro row
      split
      · trivial
      · exact (mundane_updatePayment _ rfl).ignoring
    refine Prog.Uses.bind hpersist fun _ =>
      Prog.Uses.bind (mundane_transactionOutcome _ _) fun outcome => ?_
    split
    · exact mundane_completeCompensation _ _ _
    · exact mundane_compensationFailed _ _ _

/-- Sending a compensation is mundane. -/
theorem mundane_sendCompensation (p : Payment) (ctx : CompensationContext) :
    (sendCompensation env p ctx).Uses Mundane :=
  Prog.Uses.bind (mundane_treasuryTokenTransfer _ _ _ _ _).keeping fun _ =>
    Prog.Uses.bind (mundane_updatePayment _ rfl).keeping fun _ =>
    Prog.Uses.bind (mundane_audit rfl).keeping fun _ =>
    Prog.Uses.bind (mundane_confirm _ _).keeping fun _ =>
    Prog.Uses.bind (mundane_audit rfl).keeping fun _ =>
    (mundane_transitionStatus _ (plainChange_unnamed rfl rfl)).keeping

/-- So is the compensation with its failures. -/
theorem mundane_runCompensationTransfer (p : Payment) (ctx : CompensationContext) :
    (runCompensationTransfer env p ctx).Uses Mundane := by
  have htransfer : ((sendCompensation env p ctx).handle (recoverCompensation ctx)).Uses Mundane :=
    Prog.Uses.handle (mundane_sendCompensation _ _) fun e => mundane_recoverCompensation _ e
  unfold runCompensationTransfer
  split
  · exact htransfer
  · apply Prog.Uses.bind (mundane_transactionOutcome _ _)
    intro outcome
    split
    · exact mundane_completeCompensation _ _ _
    · exact Prog.Uses.bind (mundane_audit rfl) fun _ => trivial
    · exact htransfer
    · exact htransfer

/-- Undoing is mundane. -/
theorem mundane_undo (network : Network) (pid reason : String) (p : Payment) :
    (undo env network pid reason p).Uses Mundane := by
  refine Prog.Uses.bind (mundane_plain rfl).ignoring fun _ =>
    Prog.Uses.bind (mundane_readEscrow _) fun escrow => ?_
  split
  · exact Prog.Uses.bind (mundane_lift _) fun _ =>
      Prog.Uses.bind (mundane_transitionStatus _ (plainChange_unnamed rfl rfl)) fun _ =>
      mundane_runCompensationTransfer _ _
  · split
    · exact mundane_refundOrFail _ _ _ _
    · exact mundane_endFailed _ _

/-! ## Repair and reconcile -/

/-- The lease is mundane. -/
theorem mundane_withExecutionLease {id : String} {leaseId : ℕ} {status : PaymentStatus}
    {fn : Saga α} (h : fn.Uses Mundane) :
    (withExecutionLease id leaseId status fn).Uses Mundane := by
  apply Prog.Uses.bind (mundane_plain rfl)
  intro claimed
  split
  · have hattempt : (fn.attempt : Saga (Except Err α)).Uses Mundane :=
      Prog.Uses.handle (Prog.Uses.bind h fun _ => trivial) fun _ => trivial
    have hrelease : (call (.releaseLease leaseId)).Uses Mundane := mundane_plain rfl
    exact Prog.Uses.bind hattempt fun r => Prog.Uses.bind hrelease.ignoring fun _ =>
      Prog.uses_ofExcept r
  · trivial

/-- A repair that holds the lease is mundane. -/
theorem mundane_repairLeased (leaseId : ℕ) (p : Payment) :
    (repairLeased env leaseId p).Uses Mundane := by
  have hrefuse : (refusePaidRecipient p).Uses Mundane := by
    unfold refusePaidRecipient
    split
    · trivial
    · apply Prog.Uses.bind (mundane_transactionOutcome _ _)
      intro outcome
      split <;> trivial
  refine Prog.Uses.bind (mundane_lift _) fun ctx => Prog.Uses.bind hrefuse fun _ =>
    Prog.Uses.bind (mundane_readEscrow _) fun escrow => ?_
  split
  · trivial
  · split
    · exact mundane_runCompensationTransfer _ _
    · trivial

/-- A repair is mundane. -/
theorem mundane_repairCompensation (leaseId : ℕ) :
    (repairCompensation env leaseId).Uses Mundane := by
  apply Prog.Uses.bind (mundane_plain rfl)
  intro p
  split
  · trivial
  · split
    · exact mundane_withExecutionLease (mundane_repairLeased _ _)
    · trivial

/-- Awaiting a compensation is mundane. -/
theorem mundane_awaitCompensation (p : Payment) (hash : Hash) (outcome : TransactionOutcome) :
    (awaitCompensation p hash outcome).Uses Mundane :=
  Prog.Uses.bind (mundane_plain rfl).ignoring fun _ =>
    Prog.Uses.bind (mundane_transitionStatus _ (plainChange_unnamed rfl rfl)) fun _ => trivial

/-- Reconciling a compensation is mundane. -/
theorem mundane_reconcileCompensation (p : Payment) (hash : Hash) :
    (reconcileCompensation env p hash).Uses Mundane := by
  refine Prog.Uses.bind (mundane_lift _) fun _ =>
    Prog.Uses.bind (mundane_transactionOutcome _ _) fun outcome => ?_
  split
  · exact Prog.Uses.bind (mundane_completeCompensation _ _ _) fun _ => trivial
  · exact Prog.Uses.bind (mundane_audit rfl) fun _ => trivial
  · exact Prog.Uses.bind (mundane_audit rfl) fun _ => trivial
  · exact Prog.Uses.bind (mundane_audit rfl) fun _ => trivial

/-! ## The other requests -/

/-- The gate is mundane. -/
theorem mundane_complianceGate (actor : String) (p : Payment) {selection : PaymentPatch}
    (hs : selection.status = none) : (complianceGate env actor p selection).Uses Mundane := by
  have hchecks : (runComplianceChecks env).Uses Mundane :=
    Prog.Uses.bind (mundane_plain rfl) fun _ => Prog.Uses.bind (mundane_plain rfl) fun _ =>
      Prog.Uses.bind (mundane_lift _) fun _ => Prog.Uses.bind (mundane_plain rfl) fun _ => trivial
  refine Prog.Uses.bind (mundane_transitionStatus _ (plainChange_unnamed hs rfl)) fun _ =>
    Prog.Uses.bind hchecks fun overall => ?_
  split <;> exact mundane_transitionStatus _ (plainChange_unnamed rfl rfl)

/-- A cancel is mundane. -/
theorem mundane_cancelPayment (actor : String) : (cancelPayment actor).Uses Mundane := by
  apply Prog.Uses.bind (mundane_plain rfl)
  intro p
  split
  · exact mundane_transitionStatus _ (plainChange_unnamed rfl rfl)
  · trivial

/-- A review is mundane. -/
theorem mundane_reviewPayment (actor : String) (approve : Bool) (note : String) :
    (reviewPayment actor approve note).Uses Mundane := by
  apply Prog.Uses.bind (mundane_plain rfl)
  intro p
  split
  · cases approve <;> exact mundane_transitionStatus _ ⟨rfl, rfl⟩
  · trivial

/-- A quote is mundane. -/
theorem mundane_quotePayment (actor : String) : (quotePayment env actor).Uses Mundane := by
  refine Prog.Uses.bind (mundane_plain rfl) fun _ =>
    Prog.Uses.bind mundane_quoteRoutes fun routes => ?_
  split
  · trivial
  · exact mundane_transitionStatus _ ⟨rfl, rfl⟩

end SettlementOS.Analysis
