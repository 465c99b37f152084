import SettlementOS.Program.Requests

/-!
# What each function may do

Of the statements a function performs, most read something or write a column or an event. The
others are its *deeds*: claiming the lease or giving it back, reserving, crediting the ledger,
making or persisting a screening, sending a transaction of some kind, moving the payment to some
status. To write the status or the amount of the row by its id, or the status against the
lifecycle, would be a deed too. Here is listed, function by function, which deeds it may do,
whatever it is answered.
-/

set_option autoImplicit false

namespace SettlementOS.Analysis

open SettlementOS.Computation Model Program

/-- What a statement may do that others build on. -/
inductive Deed where
  | claim
  | release
  | reserve
  | credit
  | screen
  | amend
  | send (k : CallKind)
  | move (s : PaymentStatus)
  deriving DecidableEq

/-- The deed of a statement, if it is one. -/
def deedOf : Stmt → Option Deed
  | .claimLease .. => some .claim
  | .releaseLease _ => some .release
  | .reserve .. => some .reserve
  | .createLedgerCredit _ => some .credit
  | .screen .. => some .screen
  | .createComplianceChecks _ => some .screen
  | .updatePayment data =>
    if data.status.isNone && data.destinationAmount.isNone then none else some .amend
  | .writeContract _ c => some (.send c.kind)
  | .transition status next opts =>
    if canTransition status next && opts.data.status.isNone then some (.move next) else some .amend
  | _ => none

/-- A status change gives no lease back by itself. -/
theorem deedOf_transition (status next : PaymentStatus) (opts : TransitionOpts) :
    deedOf (.transition status next opts) ≠ some .release := by
  simp only [deedOf]
  split <;> simp

/-- A statement that does no other deed than these. -/
def Within (ds : List Deed) (o : Stmt) : Prop := ∀ d, deedOf o = some d → d ∈ ds

variable {env : Env} {α : Type} {ds ds' : List Deed}

/-- A statement that is no deed does none but these. -/
theorem within_plain {o : Stmt} (h : deedOf o = none) : Within ds o := by
  intro d hd
  rw [h] at hd
  cases hd

/-- A statement's only deed is one of these. -/
theorem within_deed {o : Stmt} {d : Deed} (h : deedOf o = some d) (hd : d ∈ ds) :
    Within ds o := by
  intro d' hd'
  rw [h, Option.some.injEq] at hd'
  exact hd' ▸ hd

/-- A statement is performed, and its answer is returned or thrown. -/
theorem does_call {o : Stmt} (h : Within ds o) : (call o).Uses (Within ds) :=
  ⟨h, fun r => Prog.uses_ofExcept r⟩

/-- A statement that is no deed may always be performed. -/
theorem does_plain {o : Stmt} (h : deedOf o = none) : (call o).Uses (Within ds) :=
  does_call (within_plain h)

/-- To throw or to go on with a value does nothing. -/
theorem does_lift (x : Except Err α) : (lift x).Uses (Within ds) := Prog.uses_ofExcept x

/-- Writing an event is no deed. -/
theorem does_audit (action : String) (detail : Detail) (id : String) :
    (audit action detail id).Uses (Within ds) := does_plain rfl

/-- A status change moves the payment to the status it asks for. -/
theorem does_transitionStatus (p : Payment) {next : PaymentStatus} (opts : TransitionOpts)
    (h : .move next ∈ ds) (hd : opts.data.status = none) :
    (transitionStatus p next opts).Uses (Within ds) := by
  unfold transitionStatus
  split
  · rename_i hcan
    have hdeed : deedOf (.transition p.status next opts) = some (.move next) := by
      simp [deedOf, hd, hcan]
    apply Prog.Uses.bind (does_call (within_deed hdeed h))
    intro r
    cases r <;> trivial
  · trivial

/-- So does one that writes columns along with it. -/
theorem does_setStatus (p : Payment) {next : PaymentStatus} (data : PaymentPatch)
    (detail : Detail) (h : .move next ∈ ds) (hd : data.status = none) :
    (setStatus p next data detail).Uses (Within ds) :=
  does_transitionStatus p _ h hd

/-! ## Calls to a node -/

/-- Waiting for a receipt only reads. -/
theorem does_confirm (network : Network) (hash : Hash) :
    (confirm network hash).Uses (Within ds) := by
  apply Prog.Uses.bind (does_plain rfl)
  intro receipt
  split <;> trivial

/-- Asking for a transaction's outcome only reads. -/
theorem does_transactionOutcome (network : Network) (hash : Hash) :
    (transactionOutcome network hash).Uses (Within ds) :=
  Prog.Uses.handle (Prog.Uses.bind (does_plain rfl) fun _ => trivial) fun _ => trivial

/-- Reading the escrow only reads. -/
theorem does_readEscrow (network : Network) : (readEscrow env network).Uses (Within ds) :=
  Prog.Uses.handle (Prog.Uses.bind (does_lift _) fun _ =>
    Prog.Uses.bind (does_plain rfl) fun _ => trivial) fun _ => trivial

/-- However often it is tried again, a function does what it does at one try. -/
theorem does_retryOnReplicaLag {fn : Saga α} (h : fn.Uses (Within ds))
    (isTransient : String → Bool) (retries : ℕ) :
    (retryOnReplicaLag fn isTransient retries).Uses (Within ds) := by
  induction retries with
  | zero => exact h
  | succ retries ih =>
    apply Prog.Uses.handle h
    intro err
    split
    · exact ih
    · trivial

/-- An operator's write sends a call of its kind. -/
theorem does_operatorWrite (network : Network) {c : Call} {k : CallKind} (hk : c.kind = k)
    (h : .send k ∈ ds) : (operatorWrite env network c).Uses (Within ds) := by
  have hsend : (call (.writeContract network c)).Uses (Within ds) :=
    does_call (within_deed rfl (hk ▸ h))
  apply Prog.Uses.bind (does_lift _)
  intro _
  apply Prog.Uses.bind (does_lift _)
  intro retries
  apply Prog.Uses.bind (does_retryOnReplicaLag (Prog.Uses.bind (does_lift _) fun _ => hsend) _ _)
  intro hash
  exact does_confirm network hash

/-- Raising the allowance sends an approval. -/
theorem does_ensureSenderAllowance (network : Network) (id : String) (symbol : AssetSymbol)
    (amount : ℕ) (h : .send .approve ∈ ds) :
    (ensureSenderAllowance env network id symbol amount).Uses (Within ds) := by
  refine Prog.Uses.bind (does_lift _) fun contracts => Prog.Uses.bind (does_lift _) fun token =>
    Prog.Uses.bind (does_lift _) fun accounts => ?_
  split
  · trivial
  · apply Prog.Uses.bind (does_plain rfl)
    intro allowed
    split
    · trivial
    · exact Prog.Uses.bind (does_call (within_deed rfl h)) fun _ =>
        Prog.Uses.bind (does_confirm _ _) fun _ => trivial

/-- A transfer of the treasury sends a call of its leg's kind. -/
theorem does_treasuryTokenTransfer (leg : Leg) (network : Network) (symbol : AssetSymbol)
    (recipient : String) (amount : ℕ) {k : CallKind}
    (hk : ∀ token, (Call.transfer leg token recipient amount).kind = k) (h : .send k ∈ ds) :
    (treasuryTokenTransfer env leg network symbol recipient amount).Uses (Within ds) := by
  refine Prog.Uses.bind (does_lift _) fun contracts => Prog.Uses.bind (does_lift _) fun token =>
    Prog.Uses.bind (does_lift _) fun _ => does_call (within_deed rfl ?_)
  exact hk token.address ▸ h

/-! ## Liquidity -/

/-- The liquidity is only read. -/
theorem does_availableLiquidity (symbol : AssetSymbol) (network : Network) :
    (availableLiquidity env symbol network).Uses (Within ds) := by
  unfold availableLiquidity
  split
  · trivial
  · exact Prog.Uses.bind (does_lift _) fun _ => Prog.Uses.bind (does_plain rfl) fun _ => trivial

/-- The check of the liquidity only reads. -/
theorem does_liquidityCheck (symbol : AssetSymbol) (network : Network) (needed : String) :
    (liquidityCheck env symbol network needed).Uses (Within ds) := by
  unfold liquidityCheck
  split
  · refine Prog.Uses.handle (Prog.Uses.bind (does_availableLiquidity _ _) fun _ =>
      Prog.Uses.bind (does_lift _) fun _ => ?_) fun e => ?_
    · split
      · trivial
      · apply Prog.Uses.bind (does_plain rfl)
        intro parked
        split <;> trivial
    · split <;> trivial
  · trivial

/-- Quoting the routes only reads. -/
theorem does_quoteRoutes : (quoteRoutes env).Uses (Within ds) := by
  refine Prog.Uses.bind (does_plain rfl) fun _ =>
    Prog.Uses.bind (does_lift _) fun _ => Prog.Uses.bind (does_lift _) fun _ =>
    Prog.Uses.bind (does_lift _) fun _ => Prog.Uses.bind (does_lift _) fun _ =>
    Prog.Uses.bind (does_lift _) fun _ => ?_
  dsimp only
  split
  · exact Prog.Uses.bind (does_lift _) fun _ => Prog.Uses.bind (does_liquidityCheck _ _ _) fun _ =>
      Prog.Uses.bind (does_lift _) fun _ => trivial
  · exact Prog.Uses.bind (does_lift _) fun _ => Prog.Uses.bind (does_lift _) fun _ =>
      Prog.Uses.bind (does_lift _) fun _ => Prog.Uses.bind (does_lift _) fun _ =>
      Prog.Uses.bind (does_lift _) fun _ => Prog.Uses.bind (does_liquidityCheck _ _ _) fun _ =>
      Prog.Uses.bind (does_liquidityCheck _ _ _) fun _ => trivial

/-- To align the destination writes a column. -/
theorem does_alignDestination (p : Payment) (network : Network) :
    (alignDestination p network).Uses (Within ds) := by
  unfold alignDestination
  split
  · exact does_plain rfl
  · trivial

/-- Failing with a reason moves the payment to `FAILED`. -/
theorem does_failWith (p : Payment) (reason : String) (h : .move .failed ∈ ds) :
    (failWith p reason).Uses (Within ds) :=
  Prog.Uses.bind (does_setStatus _ _ _ h rfl) fun _ => trivial

/-- The recall before an execution can only fail the payment. -/
theorem does_autoRecall (p : Payment) (plan : Plan) (h : .move .failed ∈ ds) :
    (autoRecall env p plan).Uses (Within ds) := by
  refine Prog.Uses.bind (does_availableLiquidity _ _) fun liquidity =>
    Prog.Uses.bind (does_lift _) fun needed => ?_
  split
  · apply Prog.Uses.bind (does_plain rfl)
    intro parked
    split
    · apply Prog.Uses.handle (does_plain rfl)
      intro e
      split
      · trivial
      · exact Prog.Uses.bind (does_plain rfl).ignoring fun _ => does_failWith _ _ h
    · trivial
  · trivial

/-- The check before the reservation can only fail the payment. -/
theorem does_checkLiquidity (p : Payment) (plan : Plan) (h : .move .failed ∈ ds) :
    (checkLiquidity env p plan).Uses (Within ds) := by
  refine Prog.Uses.bind (does_availableLiquidity _ _) fun liquidity =>
    Prog.Uses.bind (does_lift _) fun needed => ?_
  split
  · exact does_failWith _ _ h
  · trivial

/-- The reservation reserves. -/
theorem does_reserveLiquidity (leaseId : ℕ) (p : Payment) (plan : Plan) (h : .reserve ∈ ds) :
    (reserveLiquidity leaseId p plan).Uses (Within ds) := by
  apply Prog.Uses.bind (does_call (within_deed rfl h))
  intro held
  split <;> trivial

/-! ## The legs of an execution -/

/-- The allowance of a plan sends an approval. -/
theorem does_grantAllowance (plan : Plan) (amountUnits : ℕ) (p : Payment)
    (h : .send .approve ∈ ds) : (grantAllowance env plan amountUnits p).Uses (Within ds) := by
  apply Prog.Uses.bind (does_ensureSenderAllowance _ _ _ _ h)
  intro tx
  split
  · trivial
  · exact Prog.Uses.bind (does_lift _) fun _ => does_audit _ _ _

/-- The deeds of the escrow leg. -/
def escrowDeeds : List Deed := [.send .approve, .send .initiate, .move .submittedOnchain]

/-- The escrow leg approves, sends the escrow and moves on to `SUBMITTED_ONCHAIN`. -/
theorem does_escrowLeg (plan : Plan) (pid : String) (amountUnits : ℕ) (p : Payment)
    (h : escrowDeeds ⊆ ds) : (escrowLeg env plan pid amountUnits p).Uses (Within ds) :=
  Prog.Uses.bind (does_grantAllowance _ _ _ (h (by decide))).keeping fun _ =>
    Prog.Uses.bind (does_lift _).keeping fun _ =>
    Prog.Uses.bind (does_operatorWrite (k := .initiate) _ rfl (h (by decide))).keeping fun _ =>
    Prog.Uses.bind (does_setStatus _ _ _ (h (by decide)) rfl).keeping fun _ => trivial

/-- The deeds of the settlement leg. -/
def settlementDeeds : List Deed :=
  [.move .confirmedOnchain, .send .settle, .move .fxOrSwapCompleted]

/-- The settlement leg sends the settlement, and moves the payment on before and after. -/
theorem does_settlementLeg (plan : Plan) (pid : String) (initTx : TxResult) (p : Payment)
    (h : settlementDeeds ⊆ ds) : (settlementLeg env plan pid initTx p).Uses (Within ds) :=
  Prog.Uses.bind (does_setStatus _ _ _ (h (by decide)) rfl).keeping fun _ =>
    Prog.Uses.bind (does_lift _).keeping fun _ => Prog.Uses.bind (does_lift _).keeping fun _ =>
    Prog.Uses.bind (does_lift _).keeping fun _ => Prog.Uses.bind (does_lift _).keeping fun _ =>
    Prog.Uses.bind (does_operatorWrite (k := .settle) _ rfl (h (by decide))).keeping fun _ =>
    Prog.Uses.bind (does_setStatus _ _ _ (h (by decide)) rfl).keeping fun _ => trivial

/-- The bridge leg sends a payout. -/
theorem does_bridgeLeg (plan : Plan) (units : ℕ) (p : Payment) (h : .send .payout ∈ ds) :
    (bridgeLeg env plan units p).Uses (Within ds) :=
  Prog.Uses.bind (does_treasuryTokenTransfer _ _ _ _ _ (fun _ => rfl) h).keeping fun _ =>
    Prog.Uses.bind (does_plain rfl).keeping fun _ =>
    Prog.Uses.bind (does_audit _ _ _).keeping fun _ =>
    Prog.Uses.bind (does_confirm _ _).keeping fun _ =>
    Prog.Uses.bind (does_audit _ _ _).keeping fun _ => trivial

/-- Paying the recipient sends a payout, or nothing. -/
theorem does_payRecipient (plan : Plan) (units : ℕ) (p : Payment) (h : .send .payout ∈ ds) :
    (payRecipient env plan units p).Uses (Within ds) := by
  unfold payRecipient
  split
  · exact does_bridgeLeg _ _ _ h
  · trivial

/-- The credit of an execution credits. -/
theorem does_creditRecipient (p : Payment) (amount : String) (h : .credit ∈ ds) :
    (creditRecipient p amount).Uses (Within ds) :=
  Prog.Uses.bind (does_call (within_deed rfl h)) fun _ => does_audit _ _ _

/-- The deeds of the payout leg. -/
def payoutDeeds : List Deed := [.move .payoutPending, .send .payout, .credit, .move .settled]

/-- The payout leg moves on to `PAYOUT_PENDING`, pays, credits and settles the payment. -/
theorem does_payoutLeg (plan : Plan) (units : ℕ) (p : Payment) (h : payoutDeeds ⊆ ds) :
    (payoutLeg env plan units p).Uses (Within ds) :=
  Prog.Uses.bind (does_setStatus _ _ _ (h (by decide)) rfl).keeping fun _ =>
    Prog.Uses.bind (does_payRecipient _ _ _ (h (by decide))) fun _ =>
    Prog.Uses.bind (does_creditRecipient _ _ (h (by decide))).keeping fun _ =>
    Prog.Uses.bind (does_plain rfl).keeping fun _ =>
    (does_setStatus _ _ _ (h (by decide)) rfl).keeping

/-- The deeds of the body of an execution's `try`. -/
def settleDeeds : List Deed := escrowDeeds ++ settlementDeeds ++ payoutDeeds

/-- Settling does the deeds of its legs. -/
theorem does_settle (plan : Plan) (pid : String) (units : ℕ) (p : Payment)
    (h : settleDeeds ⊆ ds) : (settle env plan pid units p).Uses (Within ds) :=
  Prog.Uses.bind (does_escrowLeg _ _ _ _ (List.Subset.trans (by decide) h)) fun _ =>
    Prog.Uses.bind (does_settlementLeg _ _ _ _ (List.Subset.trans (by decide) h)) fun _ =>
    does_payoutLeg _ _ _ (List.Subset.trans (by decide) h)

/-! ## Recovery -/

/-- A credit given once credits. -/
theorem does_creditOnce (p : Payment) (amount : String) (h : .credit ∈ ds) :
    (creditOnce p amount).Uses (Within ds) := by
  apply Prog.Uses.bind (does_plain rfl)
  intro credit
  split
  · trivial
  · exact does_creditRecipient _ _ h

/-- The deeds of completing a payment. -/
def completionDeeds : List Deed := [.credit, .move .settled]

/-- Completing a payout that went through does the deeds of a completion. -/
theorem does_completeSettledPayout (p : Payment) (amount reason : String) (evidence : Evidence)
    (h : completionDeeds ⊆ ds) :
    (completeSettledPayout p amount reason evidence).Uses (Within ds) :=
  Prog.Uses.bind (does_creditOnce _ _ (h (by decide))) fun _ =>
    Prog.Uses.bind (does_plain rfl).ignoring fun _ =>
    Prog.Uses.bind (does_audit _ _ _) fun _ => does_setStatus _ _ _ (h (by decide)) rfl

/-- So does what reconciles a payout, whatever the chain says. -/
theorem does_reconcileDestinationPayout (p : Payment) (network : Network)
    (amount reason : String) (h : completionDeeds ⊆ ds) :
    (reconcileDestinationPayout p network amount reason).Uses (Within ds) := by
  unfold reconcileDestinationPayout
  split
  · trivial
  · apply Prog.Uses.bind (does_transactionOutcome _ _)
    intro outcome
    split
    · exact Prog.Uses.bind (does_completeSettledPayout _ _ _ _ h) fun _ => trivial
    · exact Prog.Uses.bind (does_audit _ _ _) fun _ => trivial
    · trivial
    · trivial

/-- The end of a failed execution moves the payment to `FAILED`. -/
theorem does_endFailed (p : Payment) (reason : String) (h : .move .failed ∈ ds) :
    (endFailed p reason).Uses (Within ds) := by
  unfold endFailed
  split
  · trivial
  · exact does_setStatus _ _ _ h rfl

/-- The deeds of a refund. -/
def refundDeeds : List Deed := [.send .refund, .move .failed, .move .refunded]

/-- To refund an escrow is to send the refund and to move on by `FAILED` to `REFUNDED`. -/
theorem does_refundEscrow (network : Network) (pid reason : String) (p : Payment)
    (h : refundDeeds ⊆ ds) : (refundEscrow env network pid reason p).Uses (Within ds) :=
  Prog.Uses.bind (does_operatorWrite (k := .refund) _ rfl (h (by decide))).keeping fun _ =>
    Prog.Uses.bind (does_audit _ _ _).keeping fun _ =>
    Prog.Uses.bind (does_setStatus _ _ _ (h (by decide)) rfl).keeping fun _ =>
    (does_setStatus _ _ _ (h (by decide)) rfl).keeping

/-- So does the refund that may fail. -/
theorem does_refundOrFail (network : Network) (pid reason : String) (p : Payment)
    (h : refundDeeds ⊆ ds) : (refundOrFail env network pid reason p).Uses (Within ds) :=
  Prog.Uses.handle (does_refundEscrow _ _ _ _ h) fun _ =>
    Prog.Uses.bind (does_audit _ _ _) fun _ => does_endFailed _ _ (h (by decide))

/-! ## Compensation -/

/-- A confirmed compensation moves the payment to `COMPENSATED`. -/
theorem does_completeCompensationFromConfirmed (p : Payment) (ctx : CompensationContext)
    (hash : Hash) (h : .move .compensated ∈ ds) :
    (completeCompensationFromConfirmed p ctx hash).Uses (Within ds) :=
  Prog.Uses.bind (does_audit _ _ _) fun _ => does_transitionStatus _ _ h rfl

/-- A compensation that failed writes events alone. -/
theorem does_compensationFailed (p : Payment) (ctx : CompensationContext) (err : Err) :
    (compensationFailed p ctx err).Uses (Within ds) :=
  Prog.Uses.bind (does_audit _ _ _) fun _ => trivial

/-- A hash that is persisted late is a column. -/
theorem does_persistIfMissing (hash : Hash) : (persistIfMissing hash).Uses (Within ds) := by
  apply Prog.Uses.bind (does_plain rfl)
  intro row
  split
  · trivial
  · exact (does_plain rfl).ignoring

/-- The `catch` of a compensation sends nothing. -/
theorem does_recoverCompensation (ctx : CompensationContext) (e : Err × Payment)
    (h : .move .compensated ∈ ds) : (recoverCompensation ctx e).Uses (Within ds) := by
  unfold recoverCompensation
  split
  · exact does_compensationFailed _ _ _
  · refine Prog.Uses.bind (does_persistIfMissing _) fun _ =>
      Prog.Uses.bind (does_transactionOutcome _ _) fun outcome => ?_
    split
    · exact does_completeCompensationFromConfirmed _ _ _ h
    · exact does_compensationFailed _ _ _

/-- The deeds of a compensation. -/
def compensationDeeds : List Deed := [.send .compensation, .move .compensated]

/-- A compensation is sent, and completed once it is confirmed. -/
theorem does_sendCompensation (p : Payment) (ctx : CompensationContext)
    (h : compensationDeeds ⊆ ds) : (sendCompensation env p ctx).Uses (Within ds) :=
  Prog.Uses.bind (does_treasuryTokenTransfer (k := .compensation) _ _ _ _ _ (fun _ => rfl)
      (h (by decide))).keeping fun _ =>
    Prog.Uses.bind (does_plain rfl).keeping fun _ =>
    Prog.Uses.bind (does_audit _ _ _).keeping fun _ =>
    Prog.Uses.bind (does_confirm _ _).keeping fun _ =>
    Prog.Uses.bind (does_audit _ _ _).keeping fun _ =>
    (does_transitionStatus _ _ (h (by decide)) rfl).keeping

/-- So it does with what becomes of its failures. -/
theorem does_runCompensationTransfer (p : Payment) (ctx : CompensationContext)
    (h : compensationDeeds ⊆ ds) : (runCompensationTransfer env p ctx).Uses (Within ds) := by
  have htransfer : ((sendCompensation env p ctx).handle (recoverCompensation ctx)).Uses
      (Within ds) :=
    Prog.Uses.handle (does_sendCompensation _ _ h) fun e =>
      does_recoverCompensation _ e (h (by decide))
  unfold runCompensationTransfer
  split
  · exact htransfer
  · apply Prog.Uses.bind (does_transactionOutcome _ _)
    intro outcome
    split
    · exact does_completeCompensationFromConfirmed _ _ _ (h (by decide))
    · exact Prog.Uses.bind (does_audit _ _ _) fun _ => trivial
    · exact htransfer
    · exact htransfer

/-- The deeds of the `catch` once nobody is known to have been paid. -/
def undoDeeds : List Deed := .move .compensationPending :: compensationDeeds ++ refundDeeds

/-- Undoing does the deeds of a refund or of a compensation. -/
theorem does_undo (network : Network) (pid reason : String) (p : Payment)
    (h : undoDeeds ⊆ ds) : (undo env network pid reason p).Uses (Within ds) := by
  refine Prog.Uses.bind (does_plain rfl).ignoring fun _ =>
    Prog.Uses.bind (does_readEscrow _) fun escrow => ?_
  split
  · exact Prog.Uses.bind (does_lift _) fun _ =>
      Prog.Uses.bind (does_transitionStatus _ _ (h (by decide)) rfl) fun _ =>
      does_runCompensationTransfer _ _ (List.Subset.trans (by decide) h)
  · split
    · exact does_refundOrFail _ _ _ _ (List.Subset.trans (by decide) h)
    · exact does_endFailed _ _ (h (by decide))

/-- The deeds of the `catch` of an execution. -/
def recoveryDeeds : List Deed := completionDeeds ++ undoDeeds

/-- The recovery does its deeds, whichever branch it takes. -/
theorem does_recover (plan : Plan) (pid : String) (e : Err × Payment) (h : recoveryDeeds ⊆ ds) :
    (recover env plan pid e).Uses (Within ds) := by
  apply Prog.Uses.bind (does_plain rfl)
  intro credit
  split
  · exact does_completeSettledPayout _ _ _ _ (List.Subset.trans (by decide) h)
  · apply Prog.Uses.bind
      (does_reconcileDestinationPayout _ _ _ _ (List.Subset.trans (by decide) h))
    intro reconciled
    split
    · trivial
    · exact does_undo _ _ _ _ (List.Subset.trans (by decide) h)

/-! ## Repair and reconcile -/

/-- The deeds of holding the lease. -/
def leaseDeeds : List Deed := [.claim, .release]

/-- Under the lease a function also claims it and gives it back. -/
theorem does_withExecutionLease {id : String} {leaseId : ℕ} {status : PaymentStatus}
    {fn : Saga α} (hlease : leaseDeeds ⊆ ds) (h : fn.Uses (Within ds)) :
    (withExecutionLease id leaseId status fn).Uses (Within ds) := by
  apply Prog.Uses.bind (does_call (within_deed rfl (hlease (by decide))))
  intro claimed
  split
  · have hattempt : (fn.attempt : Saga (Except Err α)).Uses (Within ds) :=
      Prog.Uses.handle (Prog.Uses.bind h fun _ => trivial) fun _ => trivial
    have hrelease : (call (.releaseLease leaseId)).Uses (Within ds) :=
      does_call (within_deed rfl (hlease (by decide)))
    exact Prog.Uses.bind hattempt fun r => Prog.Uses.bind hrelease.ignoring fun _ =>
      Prog.uses_ofExcept r
  · trivial

/-- The deeds of an execution. -/
def executionDeeds : List Deed :=
  leaseDeeds ++ [.reserve, .move .liquidityReserved, .move .failed] ++ settleDeeds ++ recoveryDeeds

/-- The execution proper does the deeds of an execution. -/
theorem does_runExecution (leaseId : ℕ) (p : Payment) (h : executionDeeds ⊆ ds) :
    (runExecution env leaseId p).Uses (Within ds) := by
  refine Prog.Uses.bind (does_lift _) fun plan =>
    Prog.Uses.bind (does_alignDestination _ _) fun row =>
    Prog.Uses.bind (does_autoRecall _ _ (h (by decide))) fun _ =>
    Prog.Uses.bind (does_checkLiquidity _ _ (h (by decide))) fun _ =>
    Prog.Uses.bind (does_reserveLiquidity _ _ _ (h (by decide))) fun _ =>
    Prog.Uses.bind (does_setStatus _ _ _ (h (by decide)) rfl) fun row' =>
    Prog.Uses.bind (does_lift _) fun _ => Prog.Uses.bind (does_lift _) fun units => ?_
  exact Prog.Uses.handle (does_settle _ _ _ _ (List.Subset.trans (by decide) h))
    fun e => does_recover _ _ _ (List.Subset.trans (by decide) h)

/-- So does the execution of an approved payment. -/
theorem does_executePayment (leaseId : ℕ) (h : executionDeeds ⊆ ds) :
    (executePayment env leaseId).Uses (Within ds) := by
  apply Prog.Uses.bind (does_plain rfl)
  intro p
  split
  · exact does_withExecutionLease (List.Subset.trans (by decide) h) (does_runExecution _ _ h)
  · trivial

/-- So does the execution behind its checks. -/
theorem does_executeApproved (leaseId : ℕ) (h : executionDeeds ⊆ ds) :
    (executeApproved env leaseId).Uses (Within ds) :=
  Prog.Uses.handle (does_executePayment leaseId h) fun _ =>
    Prog.Uses.bind (does_plain rfl) fun _ => trivial

/-- The refusal of a paid recipient only reads. -/
theorem does_refusePaidRecipient (p : Payment) : (refusePaidRecipient p).Uses (Within ds) := by
  unfold refusePaidRecipient
  split
  · trivial
  · apply Prog.Uses.bind (does_transactionOutcome _ _)
    intro outcome
    split <;> trivial

/-- A repair claims the lease and compensates. -/
theorem does_repairCompensation (leaseId : ℕ) (h : leaseDeeds ++ compensationDeeds ⊆ ds) :
    (repairCompensation env leaseId).Uses (Within ds) := by
  apply Prog.Uses.bind (does_plain rfl)
  intro p
  split
  · trivial
  · split
    · refine does_withExecutionLease (List.Subset.trans (by decide) h)
        (Prog.Uses.bind (does_lift _) fun ctx =>
          Prog.Uses.bind (does_refusePaidRecipient p) fun _ =>
          Prog.Uses.bind (does_readEscrow _) fun escrow => ?_)
      split
      · trivial
      · split
        · exact does_runCompensationTransfer _ _ (List.Subset.trans (by decide) h)
        · trivial
    · trivial

/-- The deeds of a reconcile at `PAYOUT_PENDING`. -/
def reconcileDeeds : List Deed := .move .compensationPending :: completionDeeds

/-- What awaits a compensation moves the payment to `COMPENSATION_PENDING`. -/
theorem does_awaitCompensation (p : Payment) (hash : Hash) (outcome : TransactionOutcome)
    (h : .move .compensationPending ∈ ds) :
    (awaitCompensation p hash outcome).Uses (Within ds) :=
  Prog.Uses.bind (does_plain rfl).ignoring fun _ =>
    Prog.Uses.bind (does_transitionStatus _ _ h rfl) fun _ => trivial

/-- A payout is reconciled with the deeds of a reconciliation. -/
theorem does_reconcilePayout (p : Payment) (hash : Hash) (h : reconcileDeeds ⊆ ds) :
    (reconcilePayout p hash).Uses (Within ds) := by
  apply Prog.Uses.bind (does_transactionOutcome _ _)
  intro outcome
  split
  · exact Prog.Uses.bind (does_lift _) fun _ =>
      Prog.Uses.bind (does_completeSettledPayout _ _ _ _ (List.Subset.trans (by decide) h))
        fun _ => trivial
  · exact does_awaitCompensation _ _ _ (h (by decide))
  · exact does_awaitCompensation _ _ _ (h (by decide))
  · exact Prog.Uses.bind (does_audit _ _ _) fun _ => trivial

/-- A compensation is reconciled by moving the payment to `COMPENSATED`. -/
theorem does_reconcileCompensation (p : Payment) (hash : Hash) (h : .move .compensated ∈ ds) :
    (reconcileCompensation env p hash).Uses (Within ds) := by
  refine Prog.Uses.bind (does_lift _) fun _ =>
    Prog.Uses.bind (does_transactionOutcome _ _) fun outcome => ?_
  split
  · exact Prog.Uses.bind (does_completeCompensationFromConfirmed _ _ _ h) fun _ => trivial
  · exact Prog.Uses.bind (does_audit _ _ _) fun _ => trivial
  · exact Prog.Uses.bind (does_audit _ _ _) fun _ => trivial
  · exact Prog.Uses.bind (does_audit _ _ _) fun _ => trivial

/-- A reconcile claims the lease and does the deeds of either reconciliation. -/
theorem does_reconcileUnresolvedPayment (leaseId : ℕ)
    (h : leaseDeeds ++ .move .compensated :: reconcileDeeds ⊆ ds) :
    (reconcileUnresolvedPayment env leaseId).Uses (Within ds) := by
  apply Prog.Uses.bind (does_plain rfl)
  intro p
  dsimp only
  split
  · trivial
  · trivial
  · split
    · trivial
    · exact does_withExecutionLease (List.Subset.trans (by decide) h)
        (does_reconcilePayout _ _ (List.Subset.trans (by decide) h))
  · split
    · trivial
    · exact does_withExecutionLease (List.Subset.trans (by decide) h)
        (does_reconcileCompensation _ _ (h (by decide)))
  · trivial

/-! ## The other requests -/

/-- The checks are recorded by a screening. -/
theorem does_runComplianceChecks (h : .screen ∈ ds) : (runComplianceChecks env).Uses (Within ds) :=
  Prog.Uses.bind (does_plain rfl) fun _ =>
    Prog.Uses.bind (does_call (within_deed rfl h)) fun _ =>
      Prog.Uses.bind (does_lift _) fun _ =>
        Prog.Uses.bind (does_call (within_deed rfl h)) fun _ => trivial

/-- The deeds of the compliance gate. -/
def gateDeeds : List Deed :=
  [.move .compliancePending, .screen, .move .rejected, .move .manualReview, .move .approved]

/-- A route that was picked writes no status. -/
theorem routeSelection_status {p : Payment} {routeId : Option String} {selection : PaymentPatch}
    (h : routeSelection p routeId = .ok selection) : selection.status = none := by
  unfold routeSelection at h
  split at h
  · cases h
    rfl
  · split at h
    · split at h <;> cases h
      rfl
    · cases h
      rfl

/-- The gate screens the parties and moves the payment as the answer has it. -/
theorem does_complianceGate (actor : String) (p : Payment) {selection : PaymentPatch}
    (hs : selection.status = none) (h : gateDeeds ⊆ ds) :
    (complianceGate env actor p selection).Uses (Within ds) := by
  refine Prog.Uses.bind (does_transitionStatus _ _ (h (by decide)) hs) fun _ =>
    Prog.Uses.bind (does_runComplianceChecks (h (by decide))) fun overall => ?_
  split <;> exact does_transitionStatus _ _ (h (by decide)) rfl

/-- A cancel moves the payment to `CANCELLED`. -/
theorem does_cancelPayment (actor : String) (h : .move .cancelled ∈ ds) :
    (cancelPayment actor).Uses (Within ds) := by
  apply Prog.Uses.bind (does_plain rfl)
  intro p
  split
  · exact does_transitionStatus _ _ h rfl
  · trivial

/-- A review moves the payment to `APPROVED` or to `REJECTED`. -/
theorem does_reviewPayment (actor : String) (approve : Bool) (note : String)
    (h : [.move .approved, .move .rejected] ⊆ ds) :
    (reviewPayment actor approve note).Uses (Within ds) := by
  apply Prog.Uses.bind (does_plain rfl)
  intro p
  split
  · cases approve <;> exact does_transitionStatus _ _ (h (by decide)) rfl
  · trivial

/-- A quote moves the payment to `QUOTED`. -/
theorem does_quotePayment (actor : String) (h : .move .quoted ∈ ds) :
    (quotePayment env actor).Uses (Within ds) := by
  refine Prog.Uses.bind (does_plain rfl) fun _ => Prog.Uses.bind does_quoteRoutes fun routes => ?_
  split
  · trivial
  · exact does_transitionStatus _ _ h rfl

end SettlementOS.Analysis
