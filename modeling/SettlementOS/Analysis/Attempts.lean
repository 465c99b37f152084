import SettlementOS.Analysis.Lease

/-!
# Executions, repairs and reconciles

Each of the three reads the row, claims the lease at the status it read, and works on the row
it read: `Seen` says in what sense that row is still true when the claim goes through. A
repair and a reconcile start where an earlier attempt was allowed to leave the payment.
-/

set_option autoImplicit false

namespace SettlementOS.Analysis

open SettlementOS.Computation Model Program Discipline

variable {env : Env} {i : ℕ} {p : Payment} {w w' : World env}

/-! ## Before the claim -/

/-- Attempt `i` has read the row `p`, once the payment was quoted. -/
structure Seen (i : ℕ) (p : Payment) (w : World env) : Prop where
  fresh : Fresh i w.history
  late : 2 ≤ w.state.payment.status.rank
  identity : identity w.state.payment = identity p
  quote : quoteOf w.state.payment = quoteOf p
  payoutHash : ∀ h, p.destinationTxHash = some h → Sent w.state .payout h
  compensationHash : ∀ h, p.compensationTxHash = some h → Sent w.state .compensation h

/-- An attempt that has done nothing yet stays so. -/
theorem Fresh.rely (h : Fresh i w.history) (hr : Rely i w w') : Fresh i w'.history :=
  ⟨hr.inside.trans h.outside, hr.sentSettle.trans h.unsent, hr.recorded.trans h.unrecorded⟩

/-- That an attempt is fresh is stable. -/
theorem stable_fresh : (sagaDiscipline env).Stable i fun w => Fresh i w.history :=
  fun _ _ h _ hr => Fresh.rely h hr

/-- That an attempt is outside is stable. -/
theorem stable_outside : (sagaDiscipline env).Stable i fun w => inside i w.history = false :=
  fun _ _ h _ hr => (Rely.inside hr).trans h

/-- What an attempt has seen of the row is stable. -/
theorem Seen.stable : (sagaDiscipline env).Stable i fun w => Seen i p w := by
  intro w w' h _ hr
  have hev := Rely.evolves hr
  exact ⟨h.fresh.rely hr, Nat.le_trans h.late hev.status.rank_le, hev.identity.trans h.identity,
    (hev.quote h.late).trans h.quote, fun j hj => hev.sent (h.payoutHash j hj),
    fun j hj => hev.sent (h.compensationHash j hj)⟩

/-- The row that was read is the row. -/
theorem seen_of_read (hinv : Inv w) (hf : Fresh i w.history) (hp : w.state.payment = p)
    (hs : 2 ≤ p.status.rank) : Seen i p w := by
  subst hp
  exact ⟨hf, hs, rfl, rfl, hinv.truth.payoutHash, hinv.truth.compensationHash⟩

namespace ClaimedIn

variable {status : PaymentStatus} {l : Option ℕ}

/-- Who has claimed the lease is inside. -/
theorem inside_self {P : World env → Prop} (h : ClaimedIn i P status w w') :
    inside i w'.history = true := by
  rw [h.history]
  exact inside_claim (e := ⟨i, .claimLease i status, .ok true⟩) rfl

/-- Who has just claimed it has neither sent nor recorded a settlement. -/
theorem fresh (h : ClaimedIn i (Seen i p) status w w') :
    sentSettle i w'.history = false ∧ recordedSettle i w'.history = false := by
  rw [h.history]
  exact ⟨(sentSettle_cons fun _ => rfl).trans h.before.fresh.unsent,
    (recordedSettle_cons fun _ => by simp [movesTo]).trans h.before.fresh.unrecorded⟩

/-- Nobody was inside, so an earlier attempt has left the payment where it may be left. -/
theorem rested {P : World env → Prop} (h : ClaimedIn i P status w w')
    (hok : DbOk w'.history) : RestAt env w.state w.history := by
  rw [h.history] at hok
  exact h.inv.rest h.nobody hok.tail

/-- Nothing is held back for a payment claimed at neither of the two statuses that reserve. -/
theorem unreserved {P : World env → Prop} (h : ClaimedIn i P status w w')
    (hs : status ≠ .payoutPending ∧ status ≠ .liquidityReserved) : Unreserved w' := by
  intro hok hcs hr
  have hrest := h.rested hok
  obtain ⟨now, hst⟩ := h.state
  rw [h.history] at hcs
  rw [Reserved, hst] at hr
  rcases hrest.spared hcs.1 hr with hp | hp
  · exact hs.1 (h.found.symm.trans hp)
  · exact hs.2 (h.found.symm.trans hp)

/-- The row that was read is a true copy of one claimed past `APPROVED`. -/
theorem holding (h : ClaimedIn i (Seen i p) status w w') (hp : p.status = status)
    (hs : 5 ≤ status.rank) : Holding i { p with executionLeaseId := l } w' := by
  obtain ⟨now, hst⟩ := h.state
  have hsent : ∀ k j, Sent w'.state k j ↔ Sent w.state k j := fun k j => by rw [hst]; exact .rfl
  refine ⟨h.inside_self, ?_, hp ▸ hs, ?_, ?_, fun j hj => ?_, fun j hj => ?_⟩
  · rw [hst]
    exact h.found.trans hp.symm
  · rw [hst]
    exact h.before.identity
  · rw [hst]
    exact h.before.quote
  · exact (hsent _ _).mpr (h.before.payoutHash j hj)
  · exact (hsent _ _).mpr (h.before.compensationHash j hj)

/-- A payment claimed at `APPROVED`. -/
theorem claimed (h : ClaimedIn i (Seen i p) .approved w w') (hp : p.status = .approved) :
    Claimed i { p with executionLeaseId := l } w' ∧ Unreserved w' := by
  obtain ⟨now, hst⟩ := h.state
  have hstatus : w'.state.payment.status = .approved := by
    rw [hst]
    exact h.found
  refine ⟨⟨h.inside_self, .inl hstatus, .inl hp, ?_, ?_, h.fresh.1, h.fresh.2, fun hc => ?_⟩,
    h.unreserved ⟨by decide, by decide⟩⟩
  · rw [hst]
    exact h.before.identity
  · rw [hst]
    exact h.before.quote
  · rw [hstatus] at hc
    cases hc

/-- A payment claimed at `COMPENSATION_PENDING`. -/
theorem compensating (h : ClaimedIn i (Seen i p) .compensationPending w w')
    (hp : p.status = .compensationPending) :
    Compensating i { p with executionLeaseId := l } w' :=
  ⟨h.holding hp (by decide), hp, h.unreserved ⟨by decide, by decide⟩⟩

/-- A payment claimed at `PAYOUT_PENDING`, with a payout that was sent. -/
theorem running {hash : ℕ} (h : ClaimedIn i (Seen i p) .payoutPending w w')
    (hp : p.status = .payoutPending) (hhash : p.destinationTxHash = some hash) :
    Running i { p with executionLeaseId := l } w' := by
  have hhold := h.holding (l := l) hp (by decide)
  have hst : w'.state.payment.status = .payoutPending := hhold.status.trans hp
  refine ⟨hhold, fun j hj => ?_, fun hc => ?_, fun hs => ?_, fun hr => ?_, fun hb => ?_,
    h.after.truth.reserved (hst ▸ by decide)⟩
  · rw [h.after.truth.onePayout j hash hj (hhold.payoutHash hash hhash)]
    exact hhash
  · exact absurd (hp.symm.trans hc) (by decide)
  · rw [h.fresh.1] at hs
    cases hs
  · rw [hp] at hr
    exact absurd hr (by decide)
  · have := h.after.trace.badRead hb
    rw [hst] at this
    exact absurd this (by decide)

end ClaimedIn

/-! ## Executions -/

/-- The payment's amount is one an execution accepts. -/
def Usable (p : Payment) : Prop := ∃ units, parseAmount p.amount p.sourceCurrency = .ok units

/-- Whether a payment can be used is a matter of its identity. -/
theorem Usable.congr {p p' : Payment} (h : Usable p) (hi : identity p' = identity p) :
    Usable p' := by
  simp only [identity, Prod.mk.injEq] at hi
  rwa [Usable, hi.2.2.1, hi.2.2.2.1]

/-- A fresh attempt on a payment that can be used stays so. -/
theorem stable_usable : (sagaDiscipline env).Stable i fun w =>
    Fresh i w.history ∧ Usable w.state.payment :=
  fun _ _ h _ hr => ⟨h.1.rely hr, h.2.congr (Rely.evolves hr).identity⟩

/-- `executePayment`. -/
theorem executePayment_safe (h : Fresh i w.history ∧ Usable w.state.payment) :
    (sagaDiscipline env).Safe i (fun _ w => inside i w.history = false)
      (fun _ w => inside i w.history = false) (executePayment env i) w := by
  refine safe_bind (safe_mono (safe_perform_inv (safe_findPayment stable_usable h)) ?_
    fun _ w hx => hx.1.1.1.outside)
  rintro p w ⟨⟨⟨hf, hu⟩, rfl⟩, hinv⟩
  split
  · rename_i hs
    refine withExecutionLease_safe Seen.stable (seen_of_read hinv hf rfl (by rw [hs]; decide))
      (fun _ hP => hP.fresh.outside) (by decide) fun w₀ w' hc => ?_
    exact runExecution_safe hinv.truth.routes hu (hc.claimed hs)
  · exact hf.outside

/-! ## Repairs -/

/-- A repair is compensating, and has sent no `settlePayment` itself. -/
def Repairing (i : ℕ) (p : Payment) (w : World env) : Prop :=
  Compensating i p w ∧ sentSettle i w.history = false

/-- What a repair has found is stable. -/
theorem Repairing.stable : (sagaDiscipline env).Stable i fun w => Repairing i p w :=
  Compensating.stable fun _ _ hf hF => hf.sentSettle.trans hF

/-- `refusePaidRecipient` keeps what the attempt knows. -/
theorem refusePaidRecipient_safe (h : Repairing i p w) :
    (sagaDiscipline env).Safe i (fun _ w => Repairing i p w) (fun _ w => Repairing i p w)
      (refusePaidRecipient p) w := by
  unfold refusePaidRecipient
  split
  · exact h
  · refine safe_bind (safe_mono (safe_transactionOutcome Repairing.stable h _ _) ?_
      fun _ _ hx => hx)
    rintro o w ⟨h, -⟩
    cases o <;> exact h

/-- An attempt that has sent no `settlePayment` may read the escrow as it likes. -/
theorem readEscrow_unsent_safe {X : Err → World env → Prop} {network : Network}
    (h : Repairing i p w) :
    (sagaDiscipline env).Safe i (fun _ w => Compensating i p w) X (readEscrow env network) w := by
  have hread : ∀ w, Repairing i p w →
      (sagaDiscipline env).Safe i (fun _ w => Compensating i p w)
        (fun _ w => Compensating i p w) (call (.getPayment network)) w := by
    intro w h
    refine safe_call Repairing.stable h ?_
    rintro w hinv ⟨h, hunsent⟩ c r w' he
    have hkeep : (sagaDiscipline env).Keeps i w ⟨w.state, ⟨i, .getPayment network, r⟩ ::
        w.history⟩ ∧ Repairing i p (⟨w.state, ⟨i, .getPayment network, r⟩ :: w.history⟩ :
          World env) := by
      refine keeps_reads Repairing.stable hinv ⟨h, hunsent⟩ (.refl _) ?_ ?_
      · cases r <;> exact ⟨rfl, rfl, rfl, rfl, rfl⟩
      · rintro (hb | ⟨_, -, -, hsent, -⟩)
        · exact hb
        · rw [hunsent] at hsent
          cases hsent
    rcases exec_cases he with ⟨m, rfl, rfl⟩ | ⟨s', hp, rfl⟩
    · exact ⟨hkeep.1, fun _ _ => hkeep.2.1, fun _ _ => hkeep.2.1⟩
    · simp only [Stmt.perform, Option.some.injEq, Prod.mk.injEq] at hp
      obtain ⟨-, rfl⟩ := hp
      exact ⟨hkeep.1, fun _ _ => hkeep.2.1, fun _ _ => hkeep.2.1⟩
  refine safe_handle (safe_bind (safe_mono (safe_lift h) ?_ fun _ _ hx => hx.1.1))
  rintro _ w ⟨h, -⟩
  exact safe_bind (safe_mono (hread w h) (fun _ _ hq => hq) fun _ _ hx => hx)

/-- The leased section of a repair. -/
theorem repairLeased_safe (h : Repairing i p w) :
    (sagaDiscipline env).Safe i (fun _ w => Leaves i w) (fun _ w => Leaves i w)
      (repairLeased env i p) w := by
  refine safe_bind (safe_mono (safe_lift h) ?_ fun _ _ hx => hx.1.1.leaves)
  rintro ctx w ⟨h, -⟩
  refine safe_bind (safe_mono (refusePaidRecipient_safe h) ?_ fun _ _ hx => hx.1.leaves)
  intro _ w h
  refine safe_bind (safe_mono (readEscrow_unsent_safe h) ?_ fun _ _ hx => hx)
  intro r w h
  cases r with
  | none => exact h.leaves
  | some escrow =>
    dsimp only
    split
    · exact runCompensationTransfer_safe ⟨⟨h.inside, h.status, h.late, h.identity, h.quote,
        h.payoutHash, h.compensationHash⟩, h.pending, h.freed⟩
    · exact h.leaves

/-- `repairCompensation`. -/
theorem repairCompensation_safe (h : Fresh i w.history) :
    (sagaDiscipline env).Safe i (fun _ w => inside i w.history = false)
      (fun _ w => inside i w.history = false) (repairCompensation env i) w := by
  refine safe_bind (safe_mono (safe_perform_inv (safe_findPayment stable_fresh h)) ?_
    fun _ w hx => hx.1.1.outside)
  rintro p w ⟨⟨hf, rfl⟩, hinv⟩
  split
  · exact hf.outside
  · split
    · rename_i hs
      refine withExecutionLease_safe Seen.stable (seen_of_read hinv hf rfl (by rw [hs]; decide))
        (fun _ hP => hP.fresh.outside) (by decide) fun w₀ w' hc => ?_
      exact repairLeased_safe
        ⟨hc.compensating (l := w.state.payment.executionLeaseId) hs, hc.fresh.1⟩
    · exact hf.outside

/-! ## Reconciles -/

/-- The reconcile of a payout that has reverted. -/
theorem awaitCompensation_safe {hash : ℕ} {outcome : TransactionOutcome}
    (hs : p.status = .payoutPending) (hhash : p.destinationTxHash = some hash)
    (h : Running i p w ∧ Mined w.state hash false) :
    (sagaDiscipline env).Safe i (fun _ w => Leaves i w) (fun _ w => Leaves i w)
      (awaitCompensation p hash outcome) w := by
  refine safe_bind (safe_mono (writeReservationIgnoring_safe
    (F := fun w => Mined w.state hash false) (fun w w' hu _ hF => hu.evolves.mined hF) h) ?_
    fun _ _ hx => hx)
  rintro _ w ⟨h, hfree⟩
  refine safe_bind (safe_mono (safe_transitionStatus (P := fun w => Running i p w ∧
    Mined w.state hash false ∧ (DbOk w.history → ¬ Reserved w.state))
    (Running.stable fun w w' hf hF => ⟨hf.evolves.mined hF.1,
      fun hok hr => hF.2 (hok.of_suffix hf.history) (hf.reserved.mp hr)⟩)
    ⟨h.1, h.2, fun hok hr => ?_⟩ (by simp [hs, canTransition, transitions]) ⟨rfl, rfl, rfl⟩
    ⟨rfl, rfl⟩ (fun _ hP => hP.1.inside) ?_) ?_ ?_)
  · rw [Reserved, hfree hok] at hr
    cases hr
  · intro w hinv hP hst
    have hall : ∀ j, Sent w.state .payout j → j = hash := fun j hj => by
      have := hP.1.payouts j hj
      rw [hhash, Option.some.injEq] at this
      exact this.symm
    have hc : w.state.ledgerCredits = [] := by
      by_contra hc
      have hm := hinv.truth.paid hc hash (hP.1.payoutHash hash hhash)
      cases hm.unique hP.2.1
    refine ⟨grounds_compensationPending (by rw [hst, hs]; decide) hc
      (hinv.truth.released (by rw [hst, hs]; decide)) fun j hj => hall j hj ▸ hP.2.1,
      fun h => absurd h (by decide), fun hb => absurd hb hP.1.unread⟩
  · rintro row w' ⟨w₀, hm⟩
    have hP := hm.before
    have hrow := hm.row_status ⟨rfl, rfl, rfl⟩
    exact Compensating.leaves ⟨hm.holding ⟨rfl, rfl, rfl⟩ hP.1.inside (by decide), hrow,
      fun hok _ hr => hP.2.2 (hm.dbOk hok) (hm.reserved.mp hr)⟩
  · exact fun _ w hx => leaves_of_failure hx.1.1.inside (hx.2 hx.1.1.status)

/-- The leased section of a reconcile at `PAYOUT_PENDING`. -/
theorem reconcilePayout_safe {hash : ℕ} (hs : p.status = .payoutPending)
    (hhash : p.destinationTxHash = some hash) (h : Running i p w) :
    (sagaDiscipline env).Safe i (fun _ w => Leaves i w) (fun _ w => Leaves i w)
      (reconcilePayout p hash) w := by
  refine safe_bind (safe_mono (safe_transactionOutcome Running.stable' h _ _) ?_ fun _ _ hx => hx)
  rintro o w ⟨h, hconf, hrev, habs⟩
  cases o with
  | confirmed =>
    refine safe_bind (safe_mono (safe_lift (P := fun w => Running i p w ∧ Payable p w.state)
      ⟨h, payable_of_mined h hhash (hconf rfl)⟩) ?_ fun _ _ hx => hx.1.1.leaves hs)
    rintro destAmount w ⟨h, -⟩
    exact safe_bind (safe_mono (completeSettledPayout_safe hs h) (fun _ _ hq => hq)
      fun _ _ hx => hx)
  | reverted => exact awaitCompensation_safe hs hhash ⟨h, hrev rfl⟩
  | absent => exact absurd rfl habs
  | unknown =>
    exact safe_bind (safe_mono (safe_audit Running.stable' h _ _ _)
      (fun _ _ hw => Running.leaves hw hs) fun _ _ hx => hx.1.leaves hs)

/-- The event of a compensation that has not landed. -/
theorem compensationNotConfirmed_safe {ctx : CompensationContext} {hash : ℕ}
    {outcome : TransactionOutcome} (h : Compensating i p w) :
    (sagaDiscipline env).Safe i (fun _ w => Leaves i w) (fun _ w => Leaves i w)
      (compensationNotConfirmed p ctx hash outcome) w :=
  safe_bind (safe_mono (safe_audit Compensating.stable' h _ _ _)
    (fun _ _ hw => Compensating.leaves hw) fun _ _ hx => hx.1.leaves)

/-- The leased section of a reconcile at `COMPENSATION_PENDING`. -/
theorem reconcileCompensation_safe {hash : ℕ} (hhash : p.compensationTxHash = some hash)
    (h : Compensating i p w) :
    (sagaDiscipline env).Safe i (fun _ w => Leaves i w) (fun _ w => Leaves i w)
      (reconcileCompensation env p hash) w := by
  refine safe_bind (safe_mono (safe_lift h) ?_ fun _ _ hx => hx.1.leaves)
  rintro ctx w ⟨h, -⟩
  refine safe_bind (safe_mono (safe_transactionOutcome Compensating.stable' h _ _) ?_
    fun _ _ hx => hx)
  rintro o w ⟨h, hconf, -, -⟩
  cases o with
  | confirmed =>
    exact safe_bind (safe_mono (completeCompensationFromConfirmed_safe
      ⟨h, h.compensationHash hash hhash, hconf rfl⟩) (fun _ _ hq => hq) fun _ _ hx => hx)
  | reverted => exact compensationNotConfirmed_safe h
  | absent => exact compensationNotConfirmed_safe h
  | unknown =>
    exact safe_bind (safe_mono (safe_audit Compensating.stable' h _ _ _)
      (fun _ _ hw => Compensating.leaves hw) fun _ _ hx => hx.1.leaves)

/-- `reconcileUnresolvedPayment`. -/
theorem reconcileUnresolvedPayment_safe (h : Fresh i w.history) :
    (sagaDiscipline env).Safe i (fun _ w => inside i w.history = false)
      (fun _ w => inside i w.history = false) (reconcileUnresolvedPayment env i) w := by
  refine safe_bind (safe_mono (safe_perform_inv (safe_findPayment stable_fresh h)) ?_
    fun _ w hx => hx.1.1.outside)
  rintro p w ⟨⟨hf, rfl⟩, hinv⟩
  have hseen : 2 ≤ w.state.payment.status.rank → Seen i w.state.payment w :=
    seen_of_read hinv hf rfl
  split
  · exact hf.outside
  · exact hf.outside
  · rename_i hs
    split
    · exact hf.outside
    · rename_i hash hhash
      exact withExecutionLease_safe Seen.stable (hseen (by rw [hs]; decide))
        (fun _ hP => hP.fresh.outside) (by decide) fun w₀ w' hc =>
          reconcilePayout_safe hs hhash (hc.running hs hhash)
  · rename_i hs
    split
    · exact hf.outside
    · rename_i hash hhash
      exact withExecutionLease_safe Seen.stable (hseen (by rw [hs]; decide))
        (fun _ hP => hP.fresh.outside) (by decide) fun w₀ w' hc =>
          reconcileCompensation_safe hhash (hc.compensating hs)
  · exact hf.outside

end SettlementOS.Analysis
