import SettlementOS.Analysis.Deeds

/-!
# Which functions perform which statements

Most functions of the executor neither claim a lease nor reserve nor send a compensation. A
statement that does none of these is *quiet*; here it is shown, function by function, who
performs quiet statements only: whoever's deeds are quiet. The leased sections and the
compensation do not, but of all the functions a single one reserves.
-/

set_option autoImplicit false

namespace SettlementOS.Analysis

open SettlementOS.Computation Model Program

variable {env : Env} {α : Type}

/-- A statement that claims no lease, reserves nothing and sends no compensation. -/
def Quiet : Stmt → Prop
  | .claimLease .. => False
  | .reserve .. => False
  | .writeContract _ c => c.kind ≠ .compensation
  | _ => True

/-- A deed of quiet statements. -/
def quietDeed : Deed → Bool
  | .claim => false
  | .reserve => false
  | .send k => k ≠ .compensation
  | _ => true

/-- Statements with quiet deeds are quiet. -/
theorem Within.quiet {ds : List Deed} {o : Stmt} (h : Within ds o)
    (hds : ∀ d ∈ ds, quietDeed d = true) : Quiet o := by
  have hdeed : ∀ d, deedOf o = some d → quietDeed d = true := fun d hd => hds d (h d hd)
  cases o with
  | claimLease leaseId status => exact absurd (hdeed .claim rfl) (by decide)
  | reserve leaseId asset network amount => exact absurd (hdeed .reserve rfl) (by decide)
  | writeContract network c =>
    have hk : quietDeed (.send c.kind) = true := hdeed (.send c.kind) rfl
    have hne : c.kind ≠ .compensation := of_decide_eq_true hk
    exact hne
  | _ => trivial

/-- A program with quiet deeds is quiet. -/
theorem quiet_of_does {ε : Type} {D : List Deed} {p : Prog sagaEffects ε α}
    (h : p.Uses (Within D)) (hds : ∀ d ∈ D, quietDeed d = true) : p.Uses Quiet :=
  h.mono fun _ ho => ho.quiet hds

/-- A program that does nothing but move the payment is quiet. -/
theorem quiet_of_moves {ε : Type} {next : PaymentStatus} {p : Prog sagaEffects ε α}
    (h : p.Uses (Within [.move next])) : p.Uses Quiet :=
  quiet_of_does h fun _ hd => List.mem_singleton.mp hd ▸ rfl

/-- A statement is performed, and its answer is returned or thrown. -/
theorem uses_call {U : Stmt → Prop} {o : Stmt} (h : U o) : (call o).Uses U :=
  ⟨h, fun r => Prog.uses_ofExcept r⟩

/-- An outcome performs nothing. -/
theorem uses_lift {U : Stmt → Prop} (x : Except Err α) : (lift x).Uses U :=
  Prog.uses_ofExcept x

/-- An event is quiet. -/
theorem uses_audit (action : String) (detail : Detail) (id : String) :
    (audit action detail id).Uses Quiet := uses_call trivial

/-- Writing columns is quiet. -/
theorem uses_updatePayment (data : PaymentPatch) : (call (.updatePayment data)).Uses Quiet :=
  uses_call trivial

/-- Writing the reservation's status is quiet. -/
theorem uses_updateReservation (status : ReservationStatus) :
    (call (.updateReservation status)).Uses Quiet := uses_call trivial

/-- A status change is quiet. -/
theorem uses_transitionStatus (p : Payment) (next : PaymentStatus) (opts : TransitionOpts) :
    (transitionStatus p next opts).Uses Quiet := by
  unfold transitionStatus
  split
  · apply Prog.Uses.bind (uses_call trivial)
    intro row
    cases row <;> trivial
  · trivial

/-- So is one that writes columns along with it. -/
theorem uses_setStatus (p : Payment) (next : PaymentStatus) (data : PaymentPatch)
    (detail : Detail) : (setStatus p next data detail).Uses Quiet :=
  uses_transitionStatus _ _ _

/-- Waiting for a receipt is quiet. -/
theorem uses_confirm (network : Network) (hash : Hash) : (confirm network hash).Uses Quiet :=
  quiet_of_does (D := []) (does_confirm network hash) (by simp)

/-- Reading the escrow is quiet. -/
theorem uses_readEscrow (network : Network) : (readEscrow env network).Uses Quiet :=
  quiet_of_does (D := []) (does_readEscrow network) (by simp)

/-! ## The legs of an execution -/

/-- Aligning the destination is quiet. -/
theorem uses_alignDestination (p : Payment) (network : Network) :
    (alignDestination p network).Uses Quiet :=
  quiet_of_does (D := []) (does_alignDestination p network) (by simp)

/-- The recall before an execution is quiet. -/
theorem uses_autoRecall (p : Payment) (plan : Plan) : (autoRecall env p plan).Uses Quiet :=
  quiet_of_moves (does_autoRecall p plan (List.mem_singleton_self _))

/-- The check before the reservation is quiet. -/
theorem uses_checkLiquidity (p : Payment) (plan : Plan) :
    (checkLiquidity env p plan).Uses Quiet :=
  quiet_of_moves (does_checkLiquidity p plan (List.mem_singleton_self _))

/-- Settling is quiet. -/
theorem uses_settle (plan : Plan) (pid : String) (units : ℕ) (p : Payment) :
    (settle env plan pid units p).Uses Quiet :=
  quiet_of_does (does_settle plan pid units p (List.Subset.refl _)) (by decide)

/-! ## Recovery -/

/-- Completing a payout that went through is quiet. -/
theorem uses_completeSettledPayout (p : Payment) (amount reason : String) (evidence : Evidence) :
    (completeSettledPayout p amount reason evidence).Uses Quiet :=
  quiet_of_does (does_completeSettledPayout p amount reason evidence (List.Subset.refl _))
    (by decide)

/-- Reconciling it is quiet. -/
theorem uses_reconcileDestinationPayout (p : Payment) (network : Network)
    (amount reason : String) :
    (reconcileDestinationPayout p network amount reason).Uses Quiet :=
  quiet_of_does (does_reconcileDestinationPayout p network amount reason (List.Subset.refl _))
    (by decide)

/-- The end of a failed execution is quiet. -/
theorem uses_endFailed (p : Payment) (reason : String) : (endFailed p reason).Uses Quiet :=
  quiet_of_moves (does_endFailed p reason (List.mem_singleton_self _))

/-- A refund is quiet. -/
theorem uses_refundOrFail (network : Network) (pid reason : String) (p : Payment) :
    (refundOrFail env network pid reason p).Uses Quiet :=
  quiet_of_does (does_refundOrFail network pid reason p (List.Subset.refl _)) (by decide)

/-! ## Compensation and reconcile -/

/-- Confirming a compensation is quiet. -/
theorem uses_completeCompensationFromConfirmed (p : Payment) (ctx : CompensationContext)
    (hash : Hash) : (completeCompensationFromConfirmed p ctx hash).Uses Quiet :=
  quiet_of_moves (does_completeCompensationFromConfirmed p ctx hash (List.mem_singleton_self _))

/-- The `catch` of a compensation sends nothing. -/
theorem uses_recoverCompensation (ctx : CompensationContext) (e : Err × Payment) :
    (recoverCompensation ctx e).Uses Quiet :=
  quiet_of_moves (does_recoverCompensation ctx e (List.mem_singleton_self _))

/-- Reconciling a payout that was sent is quiet. -/
theorem uses_reconcilePayout (p : Payment) (hash : Hash) :
    (reconcilePayout p hash).Uses Quiet :=
  quiet_of_does (does_reconcilePayout p hash (List.Subset.refl _)) (by decide)

/-- Reconciling a compensation is quiet. -/
theorem uses_reconcileCompensation (p : Payment) (hash : Hash) :
    (reconcileCompensation env p hash).Uses Quiet :=
  quiet_of_moves (does_reconcileCompensation p hash (List.mem_singleton_self _))

/-! ## The requests -/

/-- The gate is quiet. -/
theorem uses_complianceGate (actor : String) (p : Payment) (selection : PaymentPatch) :
    (complianceGate env actor p selection).Uses Quiet := by
  refine Prog.Uses.bind (uses_transitionStatus _ _ _) fun _ => Prog.Uses.bind
    (quiet_of_does (does_runComplianceChecks (List.mem_singleton_self _)) (by decide))
    fun overall => ?_
  split <;> exact uses_transitionStatus _ _ _

/-- Quotes, cancels and reviews perform quiet statements only. -/
theorem uses_request (i : ℕ) (r : Request) (h : r.isAttempt = false) :
    (r.program env i).Uses Quiet := by
  cases r with
  | execute actor routeId => cases h
  | repair => cases h
  | reconcile => cases h
  | cancel actor =>
    exact Prog.Uses.bind (quiet_of_does (does_cancelPayment actor (List.mem_singleton_self _))
      (by decide)) fun _ => trivial
  | review actor approve note =>
    exact Prog.Uses.bind (quiet_of_does (does_reviewPayment actor approve note
      (List.Subset.refl _)) (by decide)) fun _ => trivial
  | quote actor =>
    exact Prog.Uses.bind (quiet_of_does (does_quotePayment actor (List.mem_singleton_self _))
      (by decide)) fun _ => trivial

end SettlementOS.Analysis
