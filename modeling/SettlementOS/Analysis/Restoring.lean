import SettlementOS.Analysis.Completion
import SettlementOS.Computation.Contract

/-!
# Repairs and reconciles of which nothing fails

A repair finds out what became of the compensation the row names, if it names one, and sends another
unless that one went through; a reconcile finds out what became of the payout. Each is followed here
from its first statement to its last.
-/

set_option autoImplicit false

namespace SettlementOS.Analysis

open SettlementOS.Computation Service Model Program

variable {env : Env} {i : ℕ} {G : Choice → Prop} {s₀ : State} {v : View}

/-! ## Compensation -/

/-- The transfers of a network's treasury can be sent. -/
structure Transfers (env : Env) (network : Network) (symbol : AssetSymbol) : Prop where
  token : ∃ net token, env.contracts network = .ok net ∧ net.tokens symbol = some token
  accounts : ∃ accounts, env.accountsFor network = .ok accounts

/-- A compensation that can be worked out can be sent, once the network has its accounts. -/
theorem transfers_of_context {p : Payment} {ctx : CompensationContext}
    (h : compensationContextFor env p = .ok ctx)
    (haccounts : ∃ accounts, env.accountsFor p.sourceNetwork = .ok accounts) :
    ctx.network = p.sourceNetwork ∧ Transfers env ctx.network ctx.tokenSymbol := by
  simp only [compensationContextFor] at h
  obtain ⟨asset, -, h⟩ := bind_eq_ok.mp h
  obtain ⟨contracts, hcontracts, h⟩ := bind_eq_ok.mp h
  split at h
  · cases h
  · obtain ⟨decimals, hdecimals, h⟩ := bind_eq_ok.mp h
    obtain ⟨units, -, h⟩ := bind_eq_ok.mp h
    cases h
    refine ⟨rfl, ⟨contracts, ?_⟩, haccounts⟩
    cases htoken : contracts.tokens asset.symbol with
    | none =>
      rw [htoken] at hdecimals
      cases hdecimals
    | some token => exact ⟨token, hcontracts, rfl⟩

section

variable (hG : Unfailing G)

include hG

/-- A transfer of the treasury is sent. -/
theorem leads_treasuryTokenTransfer {leg : Leg} {network : Network} {symbol : AssetSymbol}
    {recipient : String} {amount : ℕ} (h : Transfers env network symbol) :
    Leads env i G s₀ v (fun hash v' => v' = { v with sent := some (network, hash) })
      (treasuryTokenTransfer env leg network symbol recipient amount) := by
  obtain ⟨⟨net, token, hnet, htoken⟩, accounts, haccounts⟩ := h
  have htokenOn : tokenOn net network symbol = .ok token := by simp only [tokenOn, htoken]
  refine Leads.bind (leads_lift (P := fun a v' => a = net ∧ v' = v) hnet ⟨rfl, rfl⟩) ?_
  rintro _ _ ⟨rfl, rfl⟩
  refine Leads.bind (leads_lift (P := fun a v' => a = token ∧ v' = _) htokenOn ⟨rfl, rfl⟩) ?_
  rintro _ _ ⟨rfl, rfl⟩
  refine Leads.bind (leads_lift (P := fun _ v' => v' = _) haccounts rfl) ?_
  rintro _ _ rfl
  exact leads_writeContract hG (by cases leg <;> simp [Call.kind])

/-- The row an attempt leaves: its status, and the lease given up or still its own. -/
def EndsAt (i : ℕ) (status : PaymentStatus) (p : Payment) (v : View) : Prop :=
  p = v.payment ∧ v.payment.status = status ∧ Owned i v.payment

/-- The payment is moved on, the lease with it. -/
theorem leads_move {payment : Payment} {next : PaymentStatus} {opts : TransitionOpts}
    (hstatus : payment.status = v.payment.status)
    (hmay : canTransition v.payment.status next = true) (howned : Owned i v.payment)
    (hplain : opts.data.status = none) (hlease : opts.data.executionLeaseId = none) :
    Leads env i G s₀ v (EndsAt i next) (transitionStatus payment next opts) := by
  refine (leads_transition hG hstatus hmay).mono ?_
  rintro _ _ ⟨rfl, rfl⟩
  refine ⟨rfl, apply_status _ _ _ hplain, ?_⟩
  rw [Owned, apply_executionLeaseId _ _ _ hlease]
  split
  · exact .inr rfl
  · exact howned

/-- A compensation that goes through. -/
theorem leads_sendCompensation {compensating : Payment} {ctx : CompensationContext}
    (hstatus : v.payment.status = .compensationPending) (howned : Owned i v.payment)
    (h : Transfers env ctx.network ctx.tokenSymbol) :
    Leads env i G s₀ v (EndsAt i .compensated) (sendCompensation env compensating ctx) := by
  refine Leads.bind (leads_treasuryTokenTransfer hG h).keeping ?_
  rintro hash _ rfl
  refine Leads.bind (leads_updatePayment hG _).keeping ?_
  rintro row w ⟨rfl, rfl⟩
  refine Leads.bind (leads_audit hG _ _ _).keeping ?_
  rintro - _ rfl
  refine Leads.bind (leads_confirm hG rfl).keeping ?_
  rintro - _ rfl
  refine Leads.bind (leads_audit hG _ _ _).keeping ?_
  rintro - _ rfl
  refine Leads.keeping (leads_move hG rfl ?_ ?_ ?_ ?_)
  · show canTransition v.payment.status .compensated = true
    rw [hstatus]
    rfl
  · exact howned
  · rfl
  · rfl

/-- A compensation that has gone through already. -/
theorem leads_completeCompensation {compensating : Payment} {ctx : CompensationContext}
    {hash : Hash}
    (hrow : compensating.status = v.payment.status)
    (hstatus : v.payment.status = .compensationPending) (howned : Owned i v.payment) :
    Leads env i G s₀ v (EndsAt i .compensated)
      (completeCompensationFromConfirmed compensating ctx hash) := by
  refine Leads.bind (leads_audit hG _ _ _) ?_
  rintro - _ rfl
  exact leads_move hG hrow (by rw [hstatus]; rfl) howned rfl rfl

/-- The compensation is sent unless an earlier one went through, and the payment is
`COMPENSATED`. -/
theorem leads_runCompensationTransfer {compensating : Payment} {ctx : CompensationContext}
    (hrow : compensating.status = v.payment.status)
    (hstatus : v.payment.status = .compensationPending) (howned : Owned i v.payment)
    (h : Transfers env ctx.network ctx.tokenSymbol)
    (hknown : ∀ hash, compensating.compensationTxHash = some hash →
      ∃ r, s₀.receipt ctx.network hash = some r) :
    Leads env i G s₀ v (EndsAt i .compensated) (runCompensationTransfer env compensating ctx) := by
  have htransfer : Leads env i G s₀ v (EndsAt i .compensated)
      ((sendCompensation env compensating ctx).handle (recoverCompensation ctx)) :=
    (leads_sendCompensation hG hstatus howned h).handle
  unfold runCompensationTransfer
  cases hhash : compensating.compensationTxHash with
  | none => exact htransfer
  | some hash =>
    obtain ⟨r, hr⟩ := hknown hash hhash
    refine Leads.bind (leads_outcome hG hr) ?_
    rintro _ _ ⟨rfl, rfl⟩
    cases hsuccess : r.success with
    | true =>
      simp only [outcomeOf, hsuccess, if_true]
      exact leads_completeCompensation hG hrow hstatus howned
    | false =>
      simp only [outcomeOf, hsuccess]
      exact htransfer

/-! ## Repair -/

/-- A payout that has reverted is no obstacle. -/
theorem leads_refusePaidRecipient {payment : Payment}
    (h : ∀ hash, payment.destinationTxHash = some hash →
      ∃ r, s₀.receipt payment.destinationNetwork hash = some r ∧ r.success = false) :
    Leads env i G s₀ v (fun _ v' => v' = v) (refusePaidRecipient payment) := by
  unfold refusePaidRecipient
  cases hhash : payment.destinationTxHash with
  | none => exact leads_ret rfl
  | some hash =>
    obtain ⟨r, hr, hreverted⟩ := h hash hhash
    refine Leads.bind (leads_outcome hG hr) ?_
    rintro _ _ ⟨rfl, rfl⟩
    simp only [outcomeOf, hreverted]
    exact leads_ret rfl

/-- What a repair needs to find, apart from the lease. -/
structure Repairable (env : Env) (s₀ : State) (payment : Payment) : Prop where
  status : payment.status = .compensationPending
  source : payment.sourceNetwork = s₀.payment.sourceNetwork
  context : ∃ ctx, compensationContextFor env payment = .ok ctx
  accounts : ∃ accounts, env.accountsFor payment.sourceNetwork = .ok accounts
  payout : ∀ hash, payment.destinationTxHash = some hash →
    ∃ r, s₀.receipt payment.destinationNetwork hash = some r ∧ r.success = false
  compensation : ∀ hash, payment.compensationTxHash = some hash →
    ∃ r, s₀.receipt payment.sourceNetwork hash = some r

/-- A repair that holds the lease compensates the sender. -/
theorem leads_repairLeased {payment : Payment} (h : Repairable env s₀ payment)
    (hstatus : v.payment.status = .compensationPending) (howned : Owned i v.payment)
    (hescrow : v.escrow = .settled) :
    Leads env i G s₀ v (EndsAt i .compensated) (repairLeased env i payment) := by
  obtain ⟨ctx, hctx⟩ := h.context
  obtain ⟨hnetwork, htransfers⟩ := transfers_of_context hctx h.accounts
  obtain ⟨net, -, hnet, -⟩ := htransfers.token
  refine Leads.bind (leads_lift (P := fun a v' => a = ctx ∧ v' = v) hctx ⟨rfl, rfl⟩) ?_
  rintro _ _ ⟨rfl, rfl⟩
  refine Leads.bind (leads_refusePaidRecipient hG h.payout) ?_
  rintro - _ rfl
  rw [hnetwork, h.source] at hnet ⊢
  refine Leads.bind (leads_readEscrow hG hnet) ?_
  rintro _ w ⟨rfl, rfl⟩
  simp only [hescrow, if_true]
  refine leads_runCompensationTransfer hG (h.status.trans hstatus.symm) hstatus howned htransfers ?_
  intro hash hhash
  rw [hnetwork]
  exact h.compensation hash hhash

/-- A repair. -/
theorem leads_repairCompensation (h : Repairable env s₀ v.payment)
    (hfree : v.payment.executionLeaseId = none) (hescrow : v.escrow = .settled) :
    Leads env i G s₀ v (fun p v' => p.status = .compensated ∧ v'.payment.status = .compensated)
      (repairCompensation env i) := by
  refine Leads.bind (leads_findPayment hG) ?_
  rintro _ w ⟨rfl, rfl⟩
  simp only [h.status]
  refine (leads_withExecutionLease hG (P := EndsAt i .compensated) h.status hfree
    (fun _ _ hP => hP.2.2) fun p hleased => ?_).mono ?_
  · obtain ⟨now, rfl⟩ := hleased
    exact leads_repairLeased hG h h.status (.inl rfl) hescrow
  · rintro p v' ⟨w', ⟨rfl, hends, -⟩, hsame, -⟩
    exact ⟨hends, hsame.trans hends⟩

/-! ## Reconciling a payout -/

/-- What a reconcile at `PAYOUT_PENDING` needs to find, apart from the lease. -/
structure Reconcilable (s₀ : State) (payment : Payment) (r : Receipt) : Prop where
  status : payment.status = .payoutPending
  payout : ∃ hash, payment.destinationTxHash = some hash ∧
    s₀.receipt payment.destinationNetwork hash = some r
  amount : ∃ amount, owedAmount payment = .ok amount

/-- The recipient is credited. -/
theorem leads_creditRecipient {payment : Payment} {destAmount : String} (hnone : v.credits = []) :
    Leads env i G s₀ v
      (fun _ v' => v' = { v with
        credits := [⟨payment.recipientId, payment.destinationCurrency, destAmount⟩] })
      (creditRecipient payment destAmount) := by
  refine Leads.bind (leads_createLedgerCredit hG _ hnone) ?_
  rintro - _ rfl
  exact leads_audit hG _ _ _

/-- The recipient is credited unless that was done before. -/
theorem leads_creditOnce {payment : Payment} {destAmount : String} :
    Leads env i G s₀ v (fun _ v' => v'.payment = v.payment ∧ v'.reservation = v.reservation)
      (creditOnce payment destAmount) := by
  refine Leads.bind (leads_findLedgerCredit hG) ?_
  rintro _ w ⟨rfl, rfl⟩
  cases hcredits : w.credits with
  | cons credit credits => exact leads_ret ⟨rfl, rfl⟩
  | nil =>
    refine (leads_creditRecipient hG hcredits).mono ?_
    rintro - _ rfl
    exact ⟨rfl, rfl⟩

/-- A payout that went through is completed, and the payment is `SETTLED`. -/
theorem leads_completeSettledPayout {payment : Payment} {destAmount reason : String}
    {evidence : Evidence} {res : LiquidityReservation}
    (hrow : payment.status = v.payment.status) (hstatus : v.payment.status = .payoutPending)
    (howned : Owned i v.payment) (hres : v.reservation = some res) :
    Leads env i G s₀ v (EndsAt i .settled)
      (completeSettledPayout payment destAmount reason evidence) := by
  refine Leads.bind (leads_creditOnce hG) ?_
  rintro - w ⟨hpayment, hreservation⟩
  refine Leads.bind (P := fun _ v' => v'.payment = w.payment) (Leads.ignoring
    (leads_updateReservation hG _ (hreservation.trans hres)) ?_) ?_
  · rintro - _ rfl
    rfl
  · rintro - w' hsame
    refine Leads.bind (leads_audit hG _ _ _) ?_
    rintro - _ rfl
    have hsame := hsame.trans hpayment
    refine leads_move hG (hrow.trans (congrArg _ hsame.symm)) ?_ (hsame ▸ howned) ?_ ?_
    · rw [hsame, hstatus]
      rfl
    · rfl
    · rfl

/-- The payout has reverted: the compensation is awaited, and none is sent. -/
theorem leads_awaitCompensation {payment : Payment} {hash : Hash} {outcome : TransactionOutcome}
    {res : LiquidityReservation} (hrow : payment.status = v.payment.status)
    (hstatus : v.payment.status = .payoutPending) (howned : Owned i v.payment)
    (hres : v.reservation = some res) :
    Leads env i G s₀ v (fun r v' => EndsAt i .compensationPending r.payment v')
      (awaitCompensation payment hash outcome) := by
  refine Leads.bind (Leads.ignoring (R := fun _ v' => v'.payment = v.payment)
    (leads_updateReservation hG _ hres) ?_) ?_
  · rintro - _ rfl
    rfl
  · rintro - w hsame
    refine Leads.bind (leads_move hG (hrow.trans (congrArg _ hsame.symm)) ?_ (hsame ▸ howned) ?_ ?_)
      fun p w' hends => leads_ret hends
    · rw [hsame, hstatus]
      rfl
    · rfl
    · rfl

/-- The status a payout leads to, by its receipt. -/
def reconciledStatus (r : Receipt) : PaymentStatus :=
  if r.success then .settled else .compensationPending

/-- A payout that was sent leads where its receipt says. -/
theorem leads_reconcilePayout {payment : Payment} {hash : Hash} {r : Receipt} {amount : String}
    {res : LiquidityReservation} (hr : s₀.receipt payment.destinationNetwork hash = some r)
    (hamount : owedAmount payment = .ok amount) (hrow : payment.status = v.payment.status)
    (hstatus : v.payment.status = .payoutPending) (howned : Owned i v.payment)
    (hres : v.reservation = some res) :
    Leads env i G s₀ v (fun a v' => EndsAt i (reconciledStatus r) a.payment v')
      (reconcilePayout payment hash) := by
  refine Leads.bind (leads_outcome hG hr) ?_
  rintro _ w ⟨rfl, rfl⟩
  cases hsuccess : r.success with
  | true =>
    simp only [outcomeOf, reconciledStatus, hsuccess, if_true]
    refine Leads.bind (leads_lift (P := fun a v' => a = amount ∧ v' = w) hamount ⟨rfl, rfl⟩) ?_
    rintro _ _ ⟨rfl, rfl⟩
    exact Leads.bind (leads_completeSettledPayout hG hrow hstatus howned hres)
      fun p w' hends => leads_ret hends
  | false =>
    simp only [outcomeOf, reconciledStatus, hsuccess]
    exact leads_awaitCompensation hG hrow hstatus howned hres

/-- A reconcile of a payout whose receipt is there. -/
theorem leads_reconcile {r : Receipt} {res : LiquidityReservation} (h : Reconcilable s₀ v.payment r)
    (hfree : v.payment.executionLeaseId = none)
    (hres : v.reservation = some res) :
    Leads env i G s₀ v (fun a v' => a.payment.status = reconciledStatus r ∧
      v'.payment.status = reconciledStatus r ∧ v'.payment.executionLeaseId = none)
      (reconcileUnresolvedPayment env i) := by
  obtain ⟨hash, hhash, hr⟩ := h.payout
  obtain ⟨amount, hamount⟩ := h.amount
  refine Leads.bind (leads_findPayment hG) ?_
  rintro _ w ⟨rfl, rfl⟩
  simp only [h.status, hhash]
  refine (leads_withExecutionLease hG
    (P := fun (a : ReconcileResult) v' => EndsAt i (reconciledStatus r) a.payment v') h.status hfree
    (fun _ _ hP => hP.2.2) fun p hleased => ?_).mono ?_
  · obtain ⟨now, rfl⟩ := hleased
    exact leads_reconcilePayout hG hr hamount h.status.symm h.status (.inl rfl) hres
  · rintro a v' ⟨w', ⟨hrow, hends, -⟩, hsame, hnone⟩
    exact ⟨(congrArg _ hrow).trans hends, hsame.trans hends, hnone⟩

end

end SettlementOS.Analysis
