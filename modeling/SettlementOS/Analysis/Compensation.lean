import SettlementOS.Analysis.Holding

/-!
# Making the sender whole

Every function below starts in `COMPENSATION_PENDING`, under the lease, with the escrow
released and no payout that can still land. A transfer is marked `COMPENSATED` only on its
own successful receipt; every other end leaves the payment where a repair finds it.
-/

set_option autoImplicit false

namespace SettlementOS.Analysis

open SettlementOS.Computation Model Program Discipline

variable {env : Env} {i : ℕ} {p : Payment} {w w' : World env}

/-- Attempt `i` is inside at `COMPENSATION_PENDING`, and nothing is held back for the payment any
more. -/
structure Compensating (i : ℕ) (p : Payment) (w : World env) : Prop extends Holding i p w where
  pending : p.status = .compensationPending
  freed : DbOk w.history → CancelSpares w.history → ¬ Reserved w.state

namespace Compensating

/-- The row is at `COMPENSATION_PENDING`. -/
theorem row_pending (h : Compensating i p w) :
    w.state.payment.status = .compensationPending := h.status.trans h.pending

/-- A compensating attempt is so still, whatever the others do. -/
theorem frame (h : Compensating i p w) (hf : Frame i w w') : Compensating i p w' where
  toHolding := h.toHolding.undisturbed hf.toUndisturbed
  pending := h.pending
  freed hok hcs hr := h.freed (hok.of_suffix hf.history) (hcs.of_suffix hf.history)
    (hf.reserved.mp hr)

/-- With anything else a frame keeps, that is stable. -/
theorem stable {F : World env → Prop} (hF : ∀ w w', Frame i w w' → F w → F w') :
    (sagaDiscipline env).Stable i fun w => Compensating i p w ∧ F w :=
  stable_of_frame (fun _ h => ⟨h.1.inside, h.1.not_approved⟩)
    fun w w' hf h => ⟨h.1.frame hf, hF w w' hf h.2⟩

/-- By itself it is stable. -/
theorem stable' : (sagaDiscipline env).Stable i fun w => Compensating i p w :=
  stable_of_frame (fun _ h => ⟨h.inside, h.not_approved⟩) fun _ _ hf h => h.frame hf

/-- A payment may be left at `COMPENSATION_PENDING`. -/
theorem leaves (h : Compensating i p w) : Leaves i w where
  inside := h.inside
  rest hok := by
    have hs := h.row_pending
    refine ⟨?_, ?_, fun hcs hr => absurd hr (h.freed hok hcs), ?_⟩ <;> simp [hs]

/-- Persisting a compensation's hash. -/
theorem persisted (h : Compensating i p w) {hash : ℕ} {row : Payment}
    (hrow : row = w.state.payment.apply { compensationTxHash := some hash })
    (hinv : Inv (⟨{ w.state with payment := row },
      ⟨i, .updatePayment { compensationTxHash := some hash }, .ok row⟩ :: w.history⟩ : World env)) :
    Compensating i p (⟨{ w.state with payment := row },
      ⟨i, .updatePayment { compensationTxHash := some hash }, .ok row⟩ :: w.history⟩ : World env) ∧
    Compensating i row (⟨{ w.state with payment := row },
      ⟨i, .updatePayment { compensationTxHash := some hash }, .ok row⟩ :: w.history⟩ :
        World env) := by
  have hh := h.toHolding.updated ⟨rfl, rfl, rfl⟩ ⟨rfl, rfl⟩ hrow
  have hst : row.status = .compensationPending := by
    rw [hrow, ← h.row_pending]
    rfl
  exact ⟨⟨hh, h.pending, fun hok hcs => h.freed hok.tail hcs.1⟩,
    ⟨hh.refresh hinv, hst, fun hok hcs => h.freed hok.tail hcs.1⟩⟩

end Compensating

/-- The grounds of `COMPENSATION_PENDING`: the escrow was released, and the recipient was not paid
and cannot be any more. -/
theorem grounds_compensationPending {s : State} {reason : String}
    (hk : ∀ k ∈ broadcastable s.payment.status, k ∈ broadcastable .compensationPending)
    (hc : s.ledgerCredits = []) (he : s.escrow s.payment.sourceNetwork = .settled)
    (hrev : ∀ j, Sent s .payout j → Mined s j false) :
    Grounds s .compensationPending { failureReason := some reason } where
  kinds := hk
  credit h := absurd hc h
  released _ := he
  payoutHash _ h := by cases h
  noPayout _ := hrev
  compensationHash _ h := by cases h
  settledEnd h := by cases h
  compensatedEnd h := by cases h
  refundedEnd h := by cases h
  reserved h := absurd h (by decide)
  quote _ := ⟨rfl, rfl⟩
  routes _ h := by cases h

/-- The grounds of `COMPENSATED`: a compensation that was mined successfully. -/
theorem grounds_compensated {s : State} (ht : Truth s) {hash : ℕ}
    (hst : s.payment.status = .compensationPending) (hs : Sent s .compensation hash)
    (hm : Mined s hash true) :
    Grounds s .compensated { compensationTxHash := some hash } where
  kinds := by simp [hst, broadcastable]
  credit hc := by simpa [hst] using ht.credit hc
  released _ := ht.released (by simp [hst, releasedStates])
  payoutHash _ h := by cases h
  noPayout _ := ht.noPayout (by simp [hst, compensationStates])
  compensationHash j hj := by
    cases hj
    exact hs
  settledEnd h := by cases h
  compensatedEnd _ := ⟨hash, rfl, hm⟩
  refundedEnd h := by cases h
  reserved h := by simp [reservedStates] at h
  quote _ := ⟨rfl, rfl⟩
  routes _ h := by cases h

/-- Marking the payment `COMPENSATED` on a transfer that landed. -/
theorem markCompensated_safe {hash : ℕ} {detail : Detail}
    (h : Compensating i p w ∧ Sent w.state .compensation hash ∧ Mined w.state hash true) :
    (sagaDiscipline env).Safe i (fun _ w => Leaves i w) (fun _ w => Compensating i p w)
      (transitionStatus p .compensated
        { data := { compensationTxHash := some hash }, detail := detail }) w := by
  refine safe_mono (safe_transitionStatus
    (P := fun w => Compensating i p w ∧ Sent w.state .compensation hash ∧ Mined w.state hash true)
    (Compensating.stable fun w w' hf hF => ⟨(hf.sent _ _).mpr hF.1, hf.evolves.mined hF.2⟩) h
    ?_ ⟨rfl, rfl, rfl⟩ ⟨rfl, rfl⟩ (fun _ hP => hP.1.inside) ?_) ?_ fun _ w hx => hx.1.1
  · simp [h.1.pending, canTransition, transitions]
  · intro w hinv hP hs
    have hst := hP.1.row_pending
    refine ⟨grounds_compensated hinv.truth hst hP.2.1 hP.2.2, ?_, fun hb => ?_⟩
    · simp [strandedStates]
    · simpa [hst, strandedStates] using hinv.trace.badRead hb
  · rintro row w' ⟨w₀, hm⟩
    have hst := hm.row_status ⟨rfl, rfl, rfl⟩
    refine ⟨(hm.inside_eq i).trans hm.before.1.inside, fun hok => ?_⟩
    refine ⟨?_, ?_, fun hcs hr => ?_, ?_⟩
    · simp [hm.row_eq, hst]
    · simp [hm.row_eq, hst]
    · exact absurd (hm.reserved.mp hr)
        (hm.before.1.freed (hm.dbOk hok) (hm.cancelSpares hcs))
    · simp [hm.row_eq, hst]

/-- `completeCompensationFromConfirmed`. -/
theorem completeCompensationFromConfirmed_safe {ctx : CompensationContext} {hash : ℕ}
    (h : Compensating i p w ∧ Sent w.state .compensation hash ∧ Mined w.state hash true) :
    (sagaDiscipline env).Safe i (fun _ w => Leaves i w) (fun _ w => Leaves i w)
      (completeCompensationFromConfirmed p ctx hash) w := by
  refine safe_bind (safe_mono (safe_audit
    (P := fun w => Compensating i p w ∧ Sent w.state .compensation hash ∧ Mined w.state hash true)
    (Compensating.stable fun w w' hf hF => ⟨(hf.sent _ _).mpr hF.1, hf.evolves.mined hF.2⟩) h
    _ _ _) ?_ fun _ w hx => hx.1.1.leaves)
  exact fun _ w hw => safe_mono (markCompensated_safe hw) (fun _ _ h => h) fun _ _ h => h.leaves

/-- The event of a failed compensation. -/
theorem compensationFailed_safe {ctx : CompensationContext} {err : Err}
    (h : Compensating i p w) :
    (sagaDiscipline env).Safe i (fun _ w => Leaves i w) (fun _ w => Leaves i w)
      (compensationFailed p ctx err) w :=
  safe_bind (safe_mono (safe_audit Compensating.stable' h _ _ _)
    (fun _ _ hw => Compensating.leaves hw) fun _ _ hx => hx.1.leaves)

/-- The body of the `try` of `runCompensationTransfer`. -/
theorem sendCompensation_safe {ctx : CompensationContext} (h : Compensating i p w) :
    (sagaDiscipline env).Safe i (fun _ w => Leaves i w) (fun e w => Compensating i e.2 w)
      (sendCompensation env p ctx) w := by
  refine safe_bind (safe_keeping (safe_mono (safe_treasuryTokenTransfer Compensating.stable' h
    (fun _ hP => hP.inside) ?_) ?_ fun _ _ hx => hx))
  · intro w hinv hP c hk
    rw [hk]
    simp [Call.kind, hP.row_pending, broadcastable]
  rintro hash w' ⟨w₀, c, hk, hsent⟩
  -- the transfer is out: from here on the local row carries its hash
  have hcomp : Compensating i { p with compensationTxHash := some hash } w' := by
    have hh := hsent.holding hsent.before.toHolding
    refine ⟨⟨hh.inside, hh.status, hh.late, hh.identity, hh.quote, hh.payoutHash, ?_⟩,
      hsent.before.pending, fun hok hcs hr => ?_⟩
    · intro j hj
      cases hj
      exact hsent.sent.mpr (.inr ⟨rfl, hk⟩)
    · refine hsent.before.freed (hsent.dbOk hok) (hsent.cancelSpares hcs) ?_
      rwa [Reserved, hsent.reservation] at hr
  refine safe_bind (safe_keeping (safe_mono (safe_updatePayment Compensating.stable' hcomp
    (fun _ hP => hP.inside) ⟨rfl, rfl, rfl⟩ ?_ ⟨rfl, rfl⟩) ?_ fun _ _ hx => hx.1))
  · intro w hinv hP
    exact hinv.truth.persistCompensation (hP.compensationHash hash rfl)
      (by simp [hP.row_pending])
  rintro row w₁ ⟨hinv₁, w₂, hP, hrow, rfl⟩
  have hrowcomp := (hP.persisted hrow hinv₁).2
  have hsent₁ := hP.compensationHash hash rfl
  have hstable : (sagaDiscipline env).Stable i
      (fun w => Compensating i row w ∧ Sent w.state .compensation hash) :=
    Compensating.stable fun w w' hf hF => (hf.sent _ _).mpr hF
  refine safe_bind (safe_keeping (safe_mono (safe_audit hstable ⟨hrowcomp, hsent₁⟩ _ _ _) ?_
    fun _ _ hx => hx.1.1))
  intro _ w hw
  refine safe_bind (safe_keeping (safe_mono (safe_confirm hstable hw _ _) ?_
    fun _ _ hx => hx.1))
  rintro _ w ⟨-, hw, hm⟩
  refine safe_bind (safe_keeping (safe_mono (safe_audit
    (P := fun w => Compensating i row w ∧ Sent w.state .compensation hash ∧ Mined w.state hash true)
    (Compensating.stable fun w w' hf hF => ⟨(hf.sent _ _).mpr hF.1, hf.evolves.mined hF.2⟩)
    ⟨hw.1, hw.2, hm⟩ _ _ _) ?_ fun _ _ hx => hx.1.1))
  exact fun _ w hw => safe_keeping (markCompensated_safe hw)

/-- Persisting the hash of a transfer that is out. -/
theorem persistIfMissing_safe {hash : ℕ} (h : Compensating i p w)
    (hhash : p.compensationTxHash = some hash) :
    (sagaDiscipline env).Safe i (fun _ w => Compensating i p w) (fun _ w => Leaves i w)
      (persistIfMissing hash) w := by
  refine safe_bind (safe_mono (safe_findPayment Compensating.stable' h) ?_
    fun _ _ hx => hx.1.leaves)
  rintro row w ⟨hw, -⟩
  cases row.compensationTxHash with
  | some _ => exact hw
  | none =>
    refine safe_ignoring (safe_mono (safe_updatePayment Compensating.stable' hw
      (fun _ hP => hP.inside) ⟨rfl, rfl, rfl⟩ ?_ ⟨rfl, rfl⟩) ?_ fun _ _ hx => hx.1)
    · intro w hinv hP
      exact hinv.truth.persistCompensation (hP.compensationHash hash hhash)
        (by simp [hP.row_pending])
    · rintro row w₁ ⟨hinv₁, w₂, hP, hrow, rfl⟩
      exact (hP.persisted hrow hinv₁).1

/-- The `catch` of `runCompensationTransfer`. -/
theorem recoverCompensation_safe {ctx : CompensationContext} {e : Err × Payment}
    (h : Compensating i e.2 w) :
    (sagaDiscipline env).Safe i (fun _ w => Leaves i w) (fun _ w => Leaves i w)
      (recoverCompensation ctx e) w := by
  unfold recoverCompensation
  split
  · exact compensationFailed_safe h
  · rename_i hash hhash
    refine safe_bind (safe_mono (persistIfMissing_safe h hhash) ?_ fun _ _ hx => hx)
    intro _ w hw
    refine safe_bind (safe_mono (safe_transactionOutcome Compensating.stable' hw _ _) ?_
      fun _ _ hx => hx)
    rintro o w ⟨hw, hconf, -, -⟩
    cases o with
    | confirmed =>
      exact completeCompensationFromConfirmed_safe
        ⟨hw, hw.compensationHash hash hhash, hconf rfl⟩
    | reverted => exact compensationFailed_safe hw
    | absent => exact compensationFailed_safe hw
    | unknown => exact compensationFailed_safe hw

/-- `runCompensationTransfer`. -/
theorem runCompensationTransfer_safe {ctx : CompensationContext} (h : Compensating i p w) :
    (sagaDiscipline env).Safe i (fun _ w => Leaves i w) (fun _ w => Leaves i w)
      (runCompensationTransfer env p ctx) w := by
  have htransfer : ∀ w, Compensating i p w → (sagaDiscipline env).Safe i
      (fun _ w => Leaves i w) (fun _ w => Leaves i w)
      ((sendCompensation env p ctx).handle (recoverCompensation ctx)) w := fun w hw =>
    safe_handle (safe_mono (sendCompensation_safe hw) (fun _ _ hq => hq)
      fun _ _ hx => recoverCompensation_safe hx)
  unfold runCompensationTransfer
  split
  · exact htransfer w h
  · rename_i hash hhash
    refine safe_bind (safe_mono (safe_transactionOutcome Compensating.stable' h _ _) ?_
      fun _ _ hx => hx)
    rintro o w ⟨hw, hconf, -, -⟩
    cases o with
    | confirmed =>
      exact completeCompensationFromConfirmed_safe
        ⟨hw, hw.compensationHash hash hhash, hconf rfl⟩
    | unknown =>
      refine safe_bind (safe_mono (safe_audit Compensating.stable' hw _ _ _) ?_
        fun _ _ hx => hx.1.leaves)
      exact fun _ w hw => hw.leaves
    | reverted => exact htransfer w hw
    | absent => exact htransfer w hw

end SettlementOS.Analysis
