import SettlementOS.Analysis.Settlement

/-!
# The `catch` of an execution

Whatever the `try` was doing when it threw, the attempt is `Midway`. When the recipient was
paid the payment is completed; when that is unknown it stays; otherwise what landed is undone,
by what the escrow says, or by what the row says where the escrow cannot be read. Each end is
one an attempt may leave a payment at. The one thing that can go wrong is recorded as
`BadRead`: a `settlePayment` is out unrecorded and the escrow is not read as `SETTLED`.
-/

set_option autoImplicit false

namespace SettlementOS.Analysis

open SettlementOS.Computation Model Program Discipline

variable {env : Env} {plan : Plan} {i : ℕ} {p : Payment} {w w' : World env}

/-! ## Reading the escrow -/

/-- The recipient was not paid and cannot be any more, and nothing is held back. -/
structure Refused (p : Payment) (w : World env) : Prop where
  credits : w.state.ledgerCredits = []
  reverted : ∀ j, Sent w.state .payout j → Mined w.state j false
  freed : DbOk w.history → ¬ Reserved w.state

/-- What was refused is refused still, whatever the others do. -/
theorem Refused.frame (h : Refused p w) (hf : Frame i w w') : Refused p w' where
  credits := hf.credits.trans h.credits
  reverted j hj := hf.evolves.mined (h.reverted j ((hf.sent _ _).mp hj))
  freed hok hr := h.freed (hok.of_suffix hf.history) (hf.reserved.mp hr)

/-- What an attempt knows once it has read the escrow, or has failed to: where the escrow counts
as released it is; where it does not, no `settlePayment` is out, or the read was a bad one. -/
structure Read (i : ℕ) (p : Payment) (r : Option OnchainPaymentState) (w : World env) : Prop
    extends Holding i p w where
  refused : Refused p w
  released : settledOnChain r p.status = true → ¬ BadRead w.history ∧
    w.state.escrow w.state.payment.sourceNetwork = .settled ∧
    p.status ∈ [PaymentStatus.confirmedOnchain, .fxOrSwapCompleted, .payoutPending]
  held : settledOnChain r p.status = false →
    p.status ∈ [PaymentStatus.liquidityReserved, .submittedOnchain, .confirmedOnchain] ∧
    ∀ j, Sent w.state .settle j → BadRead w.history

/-- What was read of the escrow holds still. -/
theorem Read.frame {r : Option OnchainPaymentState} (h : Read i p r w) (hf : Frame i w w') :
    Read i p r w' where
  toHolding := h.toHolding.undisturbed hf.toUndisturbed
  refused := h.refused.frame hf
  released hr := by
    obtain ⟨hb, he, hs⟩ := h.released hr
    refine ⟨fun hb' => hb (hf.badRead hb'), ?_, hs⟩
    rw [hf.payment, (hf.evolves.escrow _).final (by simp [he]) (by simp [he]), he]
  held hr := by
    obtain ⟨hs, hj⟩ := h.held hr
    exact ⟨hs, fun j hsent => (hj j ((hf.sent _ _).mp hsent)).of_suffix hf.history⟩

/-- So what was read is stable. -/
theorem Read.stable {r : Option OnchainPaymentState} :
    (sagaDiscipline env).Stable i fun w => Read i p r w :=
  stable_of_frame (fun _ h => ⟨h.inside, h.not_approved⟩) fun _ _ hf h => h.frame hf

/-- Where the escrow counts as released. -/
theorem settledOnChain_iff {r : Option OnchainPaymentState} {s : PaymentStatus} :
    settledOnChain r s = true ↔
      r = some .settled ∨ (r = none ∧ (s = .fxOrSwapCompleted ∨ s = .payoutPending)) := by
  simp [settledOnChain]

section Reading

variable {r : Option OnchainPaymentState} {e : Entry sagaEffects}

/-- A read is a bad one when the attempt's own settlement is out, unrecorded, and the escrow is not
read as `SETTLED`. -/
theorem badRead_read {h : History} (hunread : ¬ BadRead h) (htid : e.tid = i)
    (hread : escrowRead e = some r) :
    BadRead (e :: h) ↔ r ≠ some .settled ∧ sentSettle i h = true ∧ recordedSettle i h = false := by
  constructor
  · rintro (hb | ⟨r', hr', hne, hs, hrec⟩)
    · exact absurd hb hunread
    · rw [hread, Option.some.injEq] at hr'
      subst hr' htid
      exact ⟨hne, hs, hrec⟩
  · rintro ⟨hne, hs, hrec⟩
    exact .inr ⟨r, hread, hne, htid ▸ hs, htid ▸ hrec⟩

/-- Before the confirmation no settlement is out. -/
theorem unsettled_early (hinv : Inv w) (h : Holding i p w)
    (hs : p.status ∈ [PaymentStatus.liquidityReserved, .submittedOnchain]) (j : ℕ) :
    ¬ Sent w.state .settle j := by
  intro hj
  have hk := hinv.truth.kinds _ _ hj
  rw [h.status] at hk
  simp only [List.mem_cons, List.not_mem_nil, or_false] at hs
  rcases hs with hs | hs <;> simp [hs, broadcastable] at hk

/-- The escrow counts as released: the read was no bad one, and the escrow is. -/
theorem released_of_read (hinv : Inv w) (h : Midway env plan i p w)
    (hr : ∀ e, r = some e → e = w.state.escrow w.state.payment.sourceNetwork)
    (htid : e.tid = i) (hread : escrowRead e = some r)
    (hs : settledOnChain r p.status = true) :
    ¬ BadRead (e :: w.history) ∧ w.state.escrow w.state.payment.sourceNetwork = .settled ∧
      p.status ∈ [PaymentStatus.confirmedOnchain, .fxOrSwapCompleted, .payoutPending] := by
  have hbad := badRead_read h.unread htid hread
  rcases settledOnChain_iff.mp hs with rfl | ⟨rfl, hst⟩
  · have he := (hr .settled rfl).symm
    refine ⟨fun hb => (hbad.mp hb).1 rfl, he, ?_⟩
    obtain ⟨j, hj⟩ := hinv.chain.sent (k := .settle) (by simp [contractCalls])
      (by rw [he]; rfl)
    have hnot : p.status ∉ [PaymentStatus.liquidityReserved, .submittedOnchain] :=
      fun hs => unsettled_early hinv h.toHolding hs j hj
    have hstage := h.stage
    revert hnot hstage
    cases p.status <;> decide
  · refine ⟨fun hb => ?_, hinv.truth.released (h.status.symm ▸ ?_), ?_⟩
    · obtain ⟨-, hsent, hrec⟩ := hbad.mp hb
      rcases h.recorded hsent with hc | hc
      · rcases hst with hst | hst <;> rw [hst] at hc <;> cases hc
      · rw [hc] at hrec
        cases hrec
    all_goals rcases hst with hst | hst <;> rw [hst] <;> decide

/-- The escrow does not count as released: no settlement is out, or the read was a bad one. -/
theorem held_of_read (hinv : Inv w) (h : Midway env plan i p w)
    (hr : ∀ e, r = some e → e = w.state.escrow w.state.payment.sourceNetwork)
    (htid : e.tid = i) (hread : escrowRead e = some r)
    (hs : settledOnChain r p.status = false) :
    p.status ∈ [PaymentStatus.liquidityReserved, .submittedOnchain, .confirmedOnchain] ∧
      ∀ j, Sent w.state .settle j → BadRead (e :: w.history) := by
  have hne : r ≠ some .settled := by
    rintro rfl
    simp [settledOnChain] at hs
  have hpaid : ¬ (p.status = .fxOrSwapCompleted ∨ p.status = .payoutPending) := by
    intro hp
    cases r with
    | none => exact absurd hs (by simp [settledOnChain_iff.mpr (.inr ⟨rfl, hp⟩)])
    | some e =>
      refine hne ?_
      rw [hr e rfl, hinv.truth.released (h.status.symm ▸ ?_)]
      rcases hp with hp | hp <;> rw [hp] <;> decide
  have hstatus : p.status ∈
      [PaymentStatus.liquidityReserved, .submittedOnchain, .confirmedOnchain] := by
    have hstage := h.stage
    revert hpaid hstage
    cases p.status <;> decide
  refine ⟨hstatus, fun j hj => ?_⟩
  have hconf : p.status = .confirmedOnchain := by
    have hnot : p.status ∉ [PaymentStatus.liquidityReserved, .submittedOnchain] :=
      fun hs => unsettled_early hinv h.toHolding hs j hj
    revert hnot hstatus
    cases p.status <;> decide
  exact (badRead_read h.unread htid hread).mpr
    ⟨hne, h.settles hconf j hj, h.unrecorded (by rw [hconf]; decide)⟩

/-- The escrow was read: what the attempt knows then. -/
theorem read_of_escrow (hinv : Inv w) (h : Midway env plan i p w) (href : Refused p w)
    (hr : ∀ e, r = some e → e = w.state.escrow w.state.payment.sourceNetwork)
    (he : Reads e) (htid : e.tid = i) (hread : escrowRead e = some r) :
    Read i p r (⟨w.state, e :: w.history⟩ : World env) where
  inside := (he.inside_cons i).trans h.inside
  status := h.status
  late := h.late
  identity := h.identity
  quote := h.quote
  payoutHash := h.payoutHash
  compensationHash := h.compensationHash
  refused := ⟨href.credits, href.reverted, fun hok => href.freed hok.tail⟩
  released := released_of_read hinv h hr htid hread
  held := held_of_read hinv h hr htid hread

end Reading

/-- Reading the escrow in the `catch`. -/
theorem readEscrow_safe {X : Err → World env → Prop}
    (h : Midway env plan i p w ∧ Refused p w) :
    (sagaDiscipline env).Safe i (fun r w => Read i p r w) X (readEscrow env plan.sourceNet) w := by
  obtain ⟨net, hnet⟩ := h.1.follows.compensable.contracts
  rw [← h.1.follows.source] at hnet
  have hread : (sagaDiscipline env).Safe i (fun e w => Read i p (some e) w)
      (fun _ w => Read i p none w) (call (.getPayment plan.sourceNet)) w := by
    refine safe_call (P := fun w => Midway env plan i p w ∧ Refused p w)
      (Midway.stable fun w w' hf hF => hF.frame hf) h ?_
    rintro w hinv ⟨h, href⟩ c r w' he
    have hkeep : ∀ r : Except Err OnchainPaymentState,
        (∀ e, r = .ok e → e = w.state.escrow w.state.payment.sourceNetwork) →
        (sagaDiscipline env).Keeps i w ⟨w.state, ⟨i, .getPayment plan.sourceNet, r⟩ :: w.history⟩ ∧
        Read i p r.toOption
          (⟨w.state, ⟨i, .getPayment plan.sourceNet, r⟩ :: w.history⟩ : World env) := by
      intro r hr
      have hreads : Reads ⟨i, .getPayment plan.sourceNet, r⟩ := by
        cases r <;> exact ⟨rfl, rfl, rfl, rfl, rfl⟩
      have hescrow : escrowRead ⟨i, .getPayment plan.sourceNet, r⟩ = some r.toOption := by
        cases r <;> rfl
      have hafter := read_of_escrow hinv h href (r := r.toOption)
        (by cases r <;> simp [Except.toOption] at hr ⊢; exact hr) hreads rfl hescrow
      refine ⟨keeps_inside hinv h.inside rfl (.refl _) (inv_reads hinv (.refl _) hreads ?_), hafter⟩
      rintro (hb | ⟨r', -, -, hsent, hrec⟩)
      · exact .inl hb
      · rw [h.status]
        exact .inr ((h.recorded hsent).resolve_right (by simp [hrec]))
    rcases exec_cases he with ⟨m, rfl, rfl⟩ | ⟨s', hp, rfl⟩
    · obtain ⟨hk, hr⟩ := hkeep (.error (Stmt.fault (.getPayment plan.sourceNet) m))
        (fun e he => by cases he)
      exact ⟨hk, fun a ha => (by cases ha), fun _ _ => hr⟩
    · simp only [Stmt.perform, Option.some.injEq, Prod.mk.injEq] at hp
      obtain ⟨rfl, rfl⟩ := hp
      obtain ⟨hk, hr⟩ := hkeep (.ok (w.state.escrow plan.sourceNet)) fun e he => by
        cases he
        rw [h.source]
      refine ⟨hk, fun a ha => ?_, fun e he => by cases he⟩
      cases ha
      exact hr
  unfold readEscrow
  rw [lift, hnet, Prog.ofExcept_ok, Prog.ret_bind]
  exact safe_handle (safe_bind (safe_mono hread (fun _ _ hq => hq) fun _ _ hx => hx))

/-! ## Failing -/

/-- Attempt `i` is about to fail the payment, or has: nobody was paid, nothing is held back, and a
`settlePayment` that is out was overlooked by a bad read. -/
structure Failing (i : ℕ) (p : Payment) (w : World env) : Prop extends Holding i p w where
  stage : p.status ∈
    [PaymentStatus.liquidityReserved, .submittedOnchain, .confirmedOnchain, .failed]
  credits : w.state.ledgerCredits = []
  freed : DbOk w.history → ¬ Reserved w.state
  stranded : ∀ j, Sent w.state .settle j → BadRead w.history

namespace Failing

/-- A failing attempt goes on failing, whatever the others do. -/
theorem frame (h : Failing i p w) (hf : Frame i w w') : Failing i p w' where
  toHolding := h.toHolding.undisturbed hf.toUndisturbed
  stage := h.stage
  credits := hf.credits.trans h.credits
  freed hok hr := h.freed (hok.of_suffix hf.history) (hf.reserved.mp hr)
  stranded j hj := (h.stranded j ((hf.sent _ _).mp hj)).of_suffix hf.history

/-- With anything else a frame keeps, a failing attempt is stable. -/
theorem stable {F : World env → Prop} (hF : ∀ w w', Frame i w w' → F w → F w') :
    (sagaDiscipline env).Stable i fun w => Failing i p w ∧ F w :=
  stable_of_frame (fun _ h => ⟨h.1.inside, h.1.not_approved⟩)
    fun w w' hf h => ⟨h.1.frame hf, hF w w' hf h.2⟩

/-- By itself it is stable. -/
theorem stable' : (sagaDiscipline env).Stable i fun w => Failing i p w :=
  stable_of_frame (fun _ h => ⟨h.inside, h.not_approved⟩) fun _ _ hf h => h.frame hf

/-- A payment may be left at `FAILED`. -/
theorem leaves (h : Failing i p w) (hs : p.status = .failed) : Leaves i w where
  inside := h.inside
  rest hok := by
    have hst := h.status.trans hs
    refine ⟨?_, ?_, fun _ hr => absurd hr (h.freed hok), ?_⟩ <;> simp [hst]

/-- Every kind of transaction sent before the payment fails is one a failed payment may show. -/
theorem kinds (h : Failing i p w) (hne : p.status ≠ .failed) :
    ∀ k ∈ broadcastable w.state.payment.status, k ∈ broadcastable .failed := by
  have hs := h.stage
  rw [h.status]
  revert hne hs
  cases p.status <;> decide

end Failing

/-- Moving the payment to `FAILED`. -/
theorem moveToFailed_safe {reason : String} (hne : p.status ≠ .failed) {F : World env → Prop}
    (hF : ∀ w w', Frame i w w' → F w → F w')
    (hmove : ∀ w w' : World env, F w → w'.state.txs = w.state.txs → F w')
    (h : Failing i p w ∧ F w) :
    (sagaDiscipline env).Safe i
      (fun row w => (Failing i row w ∧ F w) ∧ row.status = .failed)
      (fun _ w => Failing i p w ∧ ¬ DbOk w.history)
      (setStatus p .failed { failureReason := some reason } []) w := by
  have hcan : canTransition p.status .failed = true := by
    have hs := h.1.stage
    revert hne hs
    cases p.status <;> decide
  refine safe_mono (safe_transitionStatus (Failing.stable hF) h hcan ⟨rfl, rfl, rfl⟩ ⟨rfl, rfl⟩
    (fun _ hP => hP.1.inside) ?_) ?_ fun _ w hx => ⟨hx.1.1, hx.2 hx.1.1.status⟩
  · intro w hinv hP _
    exact ⟨grounds_silent (by decide) (hP.1.kinds hne) hP.1.credits rfl rfl (fun h => by cases h)
      (fun _ h => by cases h), fun _ => hP.1.stranded, fun _ => .inr (by decide)⟩
  · rintro row w' ⟨w₀, hm⟩
    obtain ⟨hP, hf⟩ := hm.before
    have hst := hm.row_status ⟨rfl, rfl, rfl⟩
    refine ⟨⟨⟨hm.holding ⟨rfl, rfl, rfl⟩ hP.inside (by decide), by rw [hst]; decide, ?_,
      fun hok hr => hP.freed (hm.dbOk hok) (hm.reserved.mp hr),
      fun j hj => hm.badRead.mpr (hP.stranded j (hm.sent.mp hj))⟩,
      hmove w₀ w' hf (by rw [hm.state])⟩, hst⟩
    rw [hm.state]
    exact hP.credits

/-- The last lines of the `catch`. -/
theorem endFailed_safe {reason : String} (h : Failing i p w) :
    (sagaDiscipline env).Safe i (fun _ w => Leaves i w) (fun _ w => Leaves i w)
      (endFailed p reason) w := by
  unfold endFailed
  split
  · rename_i hs
    exact h.leaves hs
  · rename_i hs
    exact safe_mono (moveToFailed_safe (F := fun _ => True) hs (fun _ _ _ h => h)
      (fun _ _ h _ => h) ⟨h, trivial⟩) (fun _ _ hq => hq.1.1.leaves hq.2)
      fun _ _ hx => leaves_of_failure hx.1.inside hx.2

/-- The `try` around the on-chain refund. -/
theorem refundEscrow_safe {pid reason : String} (hsource : plan.sourceNet = p.sourceNetwork)
    (hne : p.status ≠ .failed) (h : Failing i p w) :
    (sagaDiscipline env).Safe i (fun _ w => Leaves i w) (fun e w => Failing i e.2 w)
      (refundEscrow env plan.sourceNet pid reason p) w := by
  have hrefunded : ∀ p : Payment, (sagaDiscipline env).Stable i fun w => Failing i p w ∧
      ∃ j, Sent w.state .refund j ∧ Mined w.state j true := fun p =>
    Failing.stable fun w w' hf ⟨j, hj, hm⟩ => ⟨j, (hf.sent _ _).mpr hj, hf.evolves.mined hm⟩
  refine safe_bind (safe_keeping (safe_mono (safe_operatorWrite
    (T := fun hash w => Failing i p w ∧ Sent w.state .refund hash) Failing.stable' h
    (fun hash => Failing.stable fun w w' hf hF => (hf.sent _ _).mpr hF) (fun _ hP => hP.inside)
    ?_ ?_) ?_ ?_))
  · intro w _ hP
    refine ⟨?_, fun _ => hsource.trans hP.sourceNetwork.symm, by simp [Call.kind],
      by simp [Call.kind]⟩
    have hs := hP.stage
    rw [hP.status]
    change CallKind.refund ∈ _
    revert hs
    cases p.status <;> decide
  · intro hash w w' hs
    have hP := hs.before
    refine ⟨⟨hs.holding hP.toHolding, hP.stage, hs.credits.trans hP.credits, fun hok hr => ?_,
      fun j hj => ?_⟩, hs.sent.mpr (.inr ⟨rfl, rfl⟩)⟩
    · refine hP.freed (hs.dbOk hok) ?_
      rwa [Reserved, hs.reservation] at hr
    · rcases hs.sent.mp hj with hj | ⟨-, hj⟩
      · exact hs.badRead.mpr (hP.stranded j hj)
      · cases hj
  · rintro tx w ⟨⟨h, hs⟩, hm⟩
    refine safe_bind (safe_keeping (safe_mono (safe_audit (hrefunded p) ⟨h, tx.hash, hs, hm⟩ _ _ _)
      ?_ fun _ _ hx => hx.1.1))
    intro _ w h
    refine safe_bind (safe_keeping (safe_mono (moveToFailed_safe
      (F := fun w => ∃ j, Sent w.state .refund j ∧ Mined w.state j true) hne
      (fun w w' hf ⟨j, hj, hm⟩ => ⟨j, (hf.sent _ _).mpr hj, hf.evolves.mined hm⟩)
      (fun w w' ⟨j, hj, hm⟩ ht => ⟨j, by rwa [Sent, ht], by rwa [Mined, ht]⟩) h) ?_
      fun _ _ hx => hx.1))
    rintro row w ⟨h, hst⟩
    refine safe_keeping (safe_mono (safe_transitionStatus (hrefunded row) h
      (by simp [hst, canTransition, transitions]) ⟨rfl, rfl, rfl⟩ ⟨rfl, rfl⟩
      (fun _ hP => hP.1.inside) ?_) ?_ fun _ _ hx => hx.1.1)
    · rintro w hinv ⟨hP, j, hj, hm⟩ hs
      refine ⟨grounds_silent (by decide) ?_ hP.credits rfl rfl
        (fun _ => hinv.chain.escrow_refunded hj hm) (fun _ h => by cases h),
        fun _ => hP.stranded, fun _ => .inr (by decide)⟩
      rw [hs, hst]
      decide
    · rintro row' w' ⟨w₀, hm⟩
      have hP := hm.before.1
      have hst' := hm.row_status ⟨rfl, rfl, rfl⟩
      refine ⟨(hm.inside_eq i).trans hP.inside, fun hok => ?_⟩
      refine ⟨?_, ?_, fun _ hr => absurd (hm.reserved.mp hr) (hP.freed (hm.dbOk hok)), ?_⟩ <;>
        simp [hm.row_eq, hst']
  · rintro _ w (hx | ⟨hash, hx⟩)
    · exact hx
    · exact hx.1

/-- The refund, and what a refund that fails ends in. -/
theorem refundOrFail_safe {pid reason : String} (hsource : plan.sourceNet = p.sourceNetwork)
    (hne : p.status ≠ .failed) (h : Failing i p w) :
    (sagaDiscipline env).Safe i (fun _ w => Leaves i w) (fun _ w => Leaves i w)
      (refundOrFail env plan.sourceNet pid reason p) w := by
  refine safe_handle (safe_mono (refundEscrow_safe hsource hne h) (fun _ _ hq => hq)
    fun e w h => ?_)
  refine safe_bind (safe_mono (safe_audit Failing.stable' h _ _ _)
    (fun _ w hw => endFailed_safe hw) fun _ w hx => leaves_of_failure hx.1.inside hx.2)

/-! ## Undoing -/

/-- `compensateSender`, once the escrow counts as released. -/
theorem compensateSender_safe {ctx : CompensationContext} {r : Option OnchainPaymentState}
    (hs : settledOnChain r p.status = true) (h : Read i p r w) :
    (sagaDiscipline env).Safe i (fun _ w => Leaves i w) (fun _ w => Leaves i w)
      (compensateSender env p ctx) w := by
  have hcan : canTransition p.status .compensationPending = true ∧
      ∀ k ∈ broadcastable p.status, k ∈ broadcastable .compensationPending := by
    have hst := (h.released hs).2.2
    revert hst
    generalize p.status = s
    cases s <;> decide
  refine safe_bind (safe_mono (safe_transitionStatus Read.stable h hcan.1 ⟨rfl, rfl, rfl⟩
    ⟨rfl, rfl⟩ (fun _ hP => hP.inside) ?_) ?_ ?_)
  · intro w _ hP hst
    obtain ⟨hb, he, -⟩ := hP.released hs
    exact ⟨grounds_compensationPending (hst ▸ hcan.2) hP.refused.credits he hP.refused.reverted,
      fun h => absurd h (by decide), fun h => absurd h hb⟩
  · rintro row w' ⟨w₀, hm⟩
    have hP := hm.before
    exact runCompensationTransfer_safe ⟨hm.holding ⟨rfl, rfl, rfl⟩ hP.inside (by decide),
      hm.row_status ⟨rfl, rfl, rfl⟩,
      fun hok _ hr => hP.refused.freed (hm.dbOk hok) (hm.reserved.mp hr)⟩
  · exact fun _ w hx => leaves_of_failure hx.1.inside (hx.2 hx.1.status)

/-- The `catch` once nobody is known to have been paid. -/
theorem undo_safe {pid reason : String} (h : Midway env plan i p w ∧ w.state.ledgerCredits = [] ∧
      ∀ j, Sent w.state .payout j → Mined w.state j false) :
    (sagaDiscipline env).Safe i (fun _ w => Leaves i w) (fun _ w => Leaves i w)
      (undo env plan.sourceNet pid reason p) w := by
  obtain ⟨ctx, hctx⟩ := h.1.follows.compensable
  refine safe_bind (safe_mono (writeReservationIgnoring_safe
    (F := fun w => w.state.ledgerCredits = [] ∧
      ∀ j, Sent w.state .payout j → Mined w.state j false)
    (fun w w' hu hc hF => ⟨hc.trans hF.1, fun j hj =>
      hu.evolves.mined (hF.2 j ((hu.sent _ _).mp hj))⟩) ⟨h.1.toRunning, h.2⟩) ?_ fun _ _ hx => hx)
  rintro _ w ⟨⟨hr, hc, hrev⟩, hfree⟩
  refine safe_bind (safe_mono (readEscrow_safe ⟨⟨hr, h.1.follows, h.1.stage⟩, hc, hrev,
    fun hok hres => ?_⟩) ?_ fun _ _ hx => hx)
  · rw [Reserved, hfree hok] at hres
    cases hres
  intro r w h'
  have hfailing : settledOnChain r p.status = false → Failing i p w := by
    intro hs
    obtain ⟨hst, hstr⟩ := h'.held hs
    refine ⟨h'.toHolding, ?_, h'.refused.credits, h'.refused.freed, hstr⟩
    revert hst
    generalize p.status = s
    cases s <;> decide
  split
  · rename_i hs
    rw [lift, hctx]
    exact compensateSender_safe hs h'
  · rename_i hs
    have hf := hfailing (by simpa using hs)
    split
    · refine refundOrFail_safe h.1.follows.source (fun hst => ?_) hf
      have := h.1.stage
      rw [hst] at this
      exact absurd this (by decide)
    · exact endFailed_safe hf

/-- The `catch` of an execution. -/
theorem recover_safe {pid : String} {e : Err × Payment} (h : Midway env plan i e.2 w) :
    (sagaDiscipline env).Safe i (fun _ w => Leaves i w) (fun _ w => Leaves i w)
      (recover env plan pid e) w := by
  refine safe_bind (safe_mono (safe_perform_inv (safe_findLedgerCredit Midway.stable' h)) ?_
    fun _ w hx => leaves_of_failure hx.1.1.inside hx.1.2)
  rintro credit w ⟨⟨h, hc⟩, hinv⟩
  cases credit with
  | some credit =>
    have hne : w.state.ledgerCredits ≠ [] := fun h => by simp [h] at hc
    have hpay : e.2.status = .payoutPending := by
      rcases hinv.truth.credit hne with hs | hs
      · exact h.status.symm.trans hs
      · have := h.stage
        rw [← h.status, hs] at this
        exact absurd this (by decide)
    exact completeSettledPayout_safe hpay
      ⟨h.toRunning, payable_of_credit h.toRunning hinv.truth hne⟩
  | none =>
    have hnil := List.head?_eq_none_iff.mp hc
    have hpay : e.2.destinationTxHash ≠ none → e.2.status = .payoutPending := by
      intro hne
      obtain ⟨j, hj⟩ := Option.ne_none_iff_exists'.mp hne
      have hk := hinv.truth.kinds _ _ (h.payoutHash j hj)
      rw [h.status] at hk
      have hs := h.stage
      revert hk hs
      generalize e.2.status = s
      cases s <;> decide
    refine safe_bind (safe_mono (reconcileDestinationPayout_safe
      (F := fun w => w.state.ledgerCredits = []) (fun w w' hf hF => hf.credits.trans hF) hpay
      ⟨h.toRunning, hnil⟩) ?_ fun _ _ hx => hx)
    intro r w hr
    cases r with
    | some reconciled => exact hr
    | none =>
      obtain ⟨⟨hrun, hc⟩, hrev⟩ := hr
      exact undo_safe ⟨⟨hrun, h.follows, h.stage⟩, hc, fun j hj => hrev j (hrun.payouts j hj)⟩

end SettlementOS.Analysis
