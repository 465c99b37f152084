import SettlementOS.Analysis.Payout

/-!
# From the escrow to the payout

The body of the `try` of an execution, leg by leg. Between two statements the attempt is
`Midway`: its copy of the row is true and stands at one of the statuses between the
reservation and the payout. Every throw leaves it there, which is all the `catch` is told.
-/

set_option autoImplicit false

namespace SettlementOS.Analysis

open SettlementOS.Computation Model Program Discipline

variable {env : Env} {plan : Plan} {i : ℕ} {p : Payment} {w w' : World env}

/-! ## What the plan has to do with the row -/

/-- The sender of the payment can be paid back. -/
def Compensable (env : Env) (p : Payment) : Prop :=
  ∃ ctx, compensationContextFor env p = .ok ctx

/-- The plan is one for this row, and an attempt on it can be undone. -/
structure Follows (env : Env) (plan : Plan) (p : Payment) : Prop where
  source : plan.sourceNet = p.sourceNetwork
  crosses : CrossChain p → plan.isCrossChain = true
  compensable : Compensable env p

/-- Whether the sender can be paid back depends on columns nothing ever writes. -/
theorem compensable_congr {p p' : Payment} (h : identity p' = identity p)
    (hc : Compensable env p) : Compensable env p' := by
  simp only [identity, Prod.mk.injEq] at h
  obtain ⟨-, -, ha, hsc, -, hsn⟩ := h
  obtain ⟨ctx, hctx⟩ := hc
  simp only [Compensable, compensationContextFor, ha, hsc, hsn] at hctx ⊢
  cases hf : assetForCurrency p.sourceCurrency with
  | error e => simp [hf, bind, Except.bind] at hctx
  | ok asset =>
    cases hn : env.contracts p.sourceNetwork with
    | error e => simp [hf, hn, bind, Except.bind] at hctx
    | ok net =>
      cases hw : walletOnNetwork env.sender.wallets p.sourceNetwork with
      | none => simp [hf, hn, hw, bind, Except.bind] at hctx
      | some wallet =>
        cases hd : Env.decimalsOf (net.tokens asset.symbol) with
        | error e => simp [hf, hn, hw, hd, bind, Except.bind] at hctx
        | ok decimals =>
          cases hu : toBaseUnits p.amount decimals with
          | error e => simp [hf, hn, hw, hd, hu, bind, Except.bind] at hctx
          | ok units => exact ⟨_, by simp [hd, hu, bind, Except.bind]; rfl⟩

/-- A sender that can be paid back pays on a network that is deployed. -/
theorem Compensable.contracts (h : Compensable env p) :
    ∃ net, env.contracts p.sourceNetwork = .ok net := by
  obtain ⟨ctx, hctx⟩ := h
  cases hn : env.contracts p.sourceNetwork with
  | ok net => exact ⟨net, rfl⟩
  | error e =>
    cases hf : assetForCurrency p.sourceCurrency <;>
      simp [compensationContextFor, hf, hn, bind, Except.bind] at hctx

/-- Whether a row follows its plan is a matter of its identity and its quote. -/
theorem Follows.congr {p p' : Payment} (h : Follows env plan p)
    (hi : identity p' = identity p) (hq : quoteOf p' = quoteOf p) : Follows env plan p' where
  source := by rw [h.source, identity_sourceNetwork hi]
  crosses hx := h.crosses ((crossChain_congr hq).mp hx)
  compensable := compensable_congr hi h.compensable

/-- Attempt `i` is inside on a plan, at a status between the reservation and the payout. -/
structure Midway (env : Env) (plan : Plan) (i : ℕ) (p : Payment) (w : World env) : Prop
    extends Running i p w where
  follows : Follows env plan p
  stage : p.status ∈ reservedStates

namespace Midway

/-- An attempt midway is so still, whatever the others do. -/
theorem frame (h : Midway env plan i p w) (hf : Frame i w w') : Midway env plan i p w' :=
  ⟨h.toRunning.frame hf, h.follows, h.stage⟩

/-- With anything else a frame keeps, that is stable. -/
theorem stable {F : World env → Prop} (hF : ∀ w w', Frame i w w' → F w → F w') :
    (sagaDiscipline env).Stable i fun w => Midway env plan i p w ∧ F w :=
  stable_of_frame (fun _ h => ⟨h.1.inside, h.1.not_approved⟩)
    fun w w' hf h => ⟨h.1.frame hf, hF w w' hf h.2⟩

/-- By itself it is stable. -/
theorem stable' : (sagaDiscipline env).Stable i fun w => Midway env plan i p w :=
  stable_of_frame (fun _ h => ⟨h.inside, h.not_approved⟩) fun _ _ hf h => h.frame hf

/-- The plan's source network is the row's. -/
theorem source (h : Midway env plan i p w) :
    plan.sourceNet = w.state.payment.sourceNetwork :=
  h.follows.source.trans h.sourceNetwork.symm

end Midway

/-- The payment's recipient has been sent nothing. -/
def Unpaid (s : State) : Prop := (∀ j, ¬ Sent s .payout j) ∧ s.ledgerCredits = []

/-- A recipient who is unpaid is so still, whatever the others do. -/
theorem Unpaid.frame (h : Unpaid w.state) (hf : Frame i w w') : Unpaid w'.state :=
  ⟨fun j hj => h.1 j ((hf.sent _ _).mp hj), hf.credits.trans h.2⟩

/-- Before `PAYOUT_PENDING` nothing has been sent to the recipient. -/
theorem Truth.unpaid {s : State} (h : Truth s)
    (hp : CallKind.payout ∉ broadcastable s.payment.status) (hs : s.payment.status ≠ .settled) :
    Unpaid s := by
  refine ⟨fun j hj => hp (h.kinds _ _ hj), ?_⟩
  by_contra hc
  rcases h.credit hc with hst | hst
  · simp [hst, broadcastable] at hp
  · exact hs hst

/-! ## One status further -/

/-- Nothing has been sent to the recipient by the time `s` has a legal successor among the
statuses between the reservation and the payout. -/
theorem canTransition_reserved {s next : PaymentStatus} (h : canTransition s next = true)
    (hn : next ∈ reservedStates) : CallKind.payout ∉ broadcastable s ∧ s ≠ .settled ∧
      (s = .submittedOnchain ↔ next = .confirmedOnchain) ∧
      (s = .confirmedOnchain ↔ next = .fxOrSwapCompleted) ∧ s.rank < next.rank := by
  revert h hn
  cases s <;> cases next <;> decide

/-- The statuses between the reservation and the payout are none of those a payment ends at. -/
theorem reservedStates_apart {s : PaymentStatus} (h : s ∈ reservedStates) :
    s ∉ compensationStates ∧ s ≠ .settled ∧ s ≠ .compensated ∧ s ≠ .refunded ∧
      s ∉ strandedStates := by
  revert h
  cases s <;> decide

/-- The attempt has moved the payment on, between the reservation and the payout. -/
theorem Running.moved {P : World env → Prop} {next : PaymentStatus} {opts : TransitionOpts}
    {row : Payment} (hm : Moved i P p.status next opts row w w') (h : Running i p w)
    (hd : Plain opts.data) (hcan : canTransition p.status next = true)
    (hn : next ∈ reservedStates) (hrank : 5 ≤ next.rank) : Running i row w' := by
  have hst := hm.row_status hd
  obtain ⟨hpay, hne, hconf, hfx, hlt⟩ := canTransition_reserved hcan hn
  have hunpaid := hm.inv.truth.unpaid (h.status ▸ hpay) (h.status ▸ hne)
  have hsent : sentSettle i w'.history = sentSettle i w.history := by
    rw [hm.history]
    exact sentSettle_cons fun _ => rfl
  have hrec : recordedSettle i w'.history =
      (next == .fxOrSwapCompleted || recordedSettle i w.history) := by
    rw [hm.history]
    simp [recordedSettle, movesTo]
  refine ⟨hm.holding hd h.inside hrank, fun j hj => ?_, fun hc j hj => ?_, fun hs => ?_,
    fun hr => ?_, fun hb => h.unread (hm.badRead.mp hb), ?_⟩
  · exact absurd (hm.sent.mp hj) (hunpaid.1 j)
  · -- nothing was settled before the payment came to be confirmed
    have hsub : w.state.payment.status = .submittedOnchain :=
      h.status.trans (hconf.mpr (hst.symm.trans hc))
    have := hm.inv.truth.kinds _ _ (hm.sent.mp hj)
    simp [hsub, broadcastable] at this
  · rw [hst, hrec]
    rcases h.recorded (hsent ▸ hs) with hc | hr
    · simp [hfx.mp hc]
    · simp [hr]
  · rw [hst] at hr
    rw [hrec, h.unrecorded (by omega), Bool.or_false, beq_eq_false_iff_ne]
    rintro rfl
    simp [PaymentStatus.rank] at hr
  · rw [hm.state]
    exact h.booked

/-- One status further, on a payment that has not come to its payout. -/
theorem advance_safe {next : PaymentStatus} {data : PaymentPatch} {detail : Detail}
    (hcan : canTransition p.status next = true) (hn : next ∈ reservedStates) (hd : Plain data)
    (hq : data.quoteJson = none ∧ data.selectedRouteId = none)
    (hdest : data.destinationTxHash = none) (hcomp : data.compensationTxHash = none)
    (h : Midway env plan i p w ∧ (next = .fxOrSwapCompleted →
      ∃ j, Sent w.state .settle j ∧ Mined w.state j true)) :
    (sagaDiscipline env).Safe i
      (fun row w => Midway env plan i row w ∧ Unpaid w.state ∧ row.status = next)
      (fun _ w => Midway env plan i p w) (setStatus p next data detail) w := by
  have hrank : 5 ≤ next.rank := by
    revert hn
    cases next <;> decide
  refine safe_mono (safe_transitionStatus (P := fun w => Midway env plan i p w ∧
    (next = .fxOrSwapCompleted → ∃ j, Sent w.state .settle j ∧ Mined w.state j true))
    (Midway.stable fun w w' hf hF hx => ?_) h hcan hd hq (fun _ hP => hP.1.inside) ?_) ?_
    fun _ w hx => hx.1.1
  · obtain ⟨j, hj, hm⟩ := hF hx
    exact ⟨j, (hf.sent _ _).mpr hj, hf.evolves.mined hm⟩
  · intro w hinv hP hst
    obtain ⟨hpay, hne, -, hfx, -⟩ := canTransition_reserved hcan hn
    have hunpaid := hinv.truth.unpaid (hst ▸ hpay) (hst ▸ hne)
    obtain ⟨hnc, hns, hncd, hnr, hnst⟩ := reservedStates_apart hn
    refine ⟨⟨?_, fun hc => absurd hunpaid.2 hc, fun hr => ?_, by simp [hdest],
      fun hc => absurd hc hnc, by simp [hcomp], fun hc => absurd hc hns,
      fun hc => absurd hc hncd, fun hc => absurd hc hnr, fun _ => hP.1.booked, fun _ => hq,
      by simp [hq]⟩, fun hs => absurd hs hnst, fun hb => absurd hb hP.1.unread⟩
    · rw [hst]
      revert hcan hn
      generalize p.status = s
      cases s <;> cases next <;> decide
    · by_cases hx : next = .fxOrSwapCompleted
      · obtain ⟨j, hj, hm⟩ := hP.2 hx
        exact hinv.chain.escrow_settled hj hm
      · refine hinv.truth.released ?_
        rw [hst]
        revert hcan hn hr hx
        generalize p.status = s
        cases s <;> cases next <;> decide
  · rintro row w' ⟨w₀, hm⟩
    have hP := hm.before.1
    obtain ⟨hpay, hne, -⟩ := canTransition_reserved hcan hn
    have hunpaid := hm.inv.truth.unpaid (hm.found ▸ hpay) (hm.found ▸ hne)
    have hst := hm.row_status hd
    have hid : identity row = identity p := by
      rw [hm.written, apply_identity, hP.identity]
    have hquote : quoteOf row = quoteOf p := by
      rw [hm.written, apply_quoteOf _ _ _ hq.1 hq.2, hP.quote]
    refine ⟨⟨hP.toRunning.moved hm hd hcan hn hrank, hP.follows.congr hid hquote, hst ▸ hn⟩,
      ⟨fun j hj => hunpaid.1 j (hm.sent.mp hj), ?_⟩, hst⟩
    rw [hm.state]
    exact hunpaid.2

/-! ## Sending -/

/-- The attempt has sent a transaction that is no payout, and a `settlePayment` only at
`CONFIRMED_ONCHAIN`. -/
theorem Midway.sent {P : World env → Prop} {network : Network} {c : Call} {hash : ℕ}
    (hs : SentBy i P network c hash w w') (h : Midway env plan i p w) (hk : c.kind ≠ .payout)
    (hc : c.kind = .settle → p.status = .confirmedOnchain) : Midway env plan i p w' := by
  have hsettle : sentSettle i w'.history = (c.kind == .settle || sentSettle i w.history) := by
    rw [hs.history]
    simp [sentSettle, sendsKind, sends]
  have hrec : recordedSettle i w'.history = recordedSettle i w.history := by
    rw [hs.history]
    exact recordedSettle_cons fun _ => by simp [movesTo]
  refine ⟨⟨hs.holding h.toHolding, fun j hj => ?_, fun hconf j hj => ?_, fun hset => ?_,
    fun hr => hrec.trans (h.unrecorded hr), fun hb => h.unread (hs.badRead.mp hb), ?_⟩,
    h.follows, h.stage⟩
  · rcases hs.sent.mp hj with hj | ⟨-, hj⟩
    · exact h.payouts j hj
    · exact absurd hj hk
  · rw [hsettle, Bool.or_eq_true, beq_iff_eq]
    rcases hs.sent.mp hj with hj | ⟨-, hj⟩
    · exact .inr (h.settles hconf j hj)
    · exact .inl hj
  · rw [hsettle, Bool.or_eq_true, beq_iff_eq] at hset
    rw [hrec]
    rcases hset with hset | hset
    · exact .inl (hc hset)
    · exact h.recorded hset
  · rw [hs.reservation]
    exact h.booked

/-- Granting the sender's allowance. -/
theorem grantAllowance_safe {amountUnits : ℕ} (hs : p.status = .liquidityReserved)
    (h : Midway env plan i p w) :
    (sagaDiscipline env).Safe i (fun _ w => Midway env plan i p w)
      (fun _ w => Midway env plan i p w) (grantAllowance env plan amountUnits p) w := by
  have hensure : (sagaDiscipline env).Safe i (fun _ w => Midway env plan i p w)
      (fun _ w => Midway env plan i p w) (ensureSenderAllowance env plan.sourceNet
        env.sender.externalId plan.sourceAsset.symbol amountUnits) w := by
    refine safe_bind (safe_mono (safe_lift h) ?_ fun _ _ hx => hx.1)
    rintro contracts w ⟨h, -⟩
    refine safe_bind (safe_mono (safe_lift h) ?_ fun _ _ hx => hx.1)
    rintro token w ⟨h, -⟩
    refine safe_bind (safe_mono (safe_lift h) ?_ fun _ _ hx => hx.1)
    rintro accounts w ⟨h, -⟩
    split
    · exact h
    · refine safe_bind (safe_mono (safe_allowance Midway.stable' h _ _ _ _) ?_ fun _ _ hx => hx)
      intro allowed w h
      split
      · exact h
      · refine safe_bind (safe_mono (safe_writeContract Midway.stable' h (fun _ hP => hP.inside)
          ?_) ?_ fun _ _ hx => hx)
        · intro w _ hP
          simp [Call.kind, hP.status.trans hs, broadcastable, contractCalls]
        · rintro hash w' ⟨w₀, hsent⟩
          have h := hsent.before.sent hsent (by simp [Call.kind]) (by simp [Call.kind])
          refine safe_bind (safe_mono (safe_confirm Midway.stable' h _ _) ?_ fun _ _ hx => hx)
          exact fun _ _ hq => hq.2.1
  refine safe_bind (safe_mono hensure ?_ fun _ _ hx => hx)
  intro tx w h
  cases tx with
  | none => exact h
  | some tx =>
    refine safe_bind (safe_mono (safe_lift h) ?_ fun _ _ hx => hx.1)
    rintro contracts w ⟨h, -⟩
    exact safe_mono (safe_audit Midway.stable' h _ _ _) (fun _ _ hq => hq) fun _ _ hx => hx.1

/-- A call to the settlement contract that is no payout. -/
theorem operatorWrite_safe {c : Call} (hk : c.kind ∈ contractCalls)
    (hb : c.kind ∈ broadcastable p.status)
    (hc : c.kind = .settle → p.status = .confirmedOnchain) (h : Midway env plan i p w) :
    (sagaDiscipline env).Safe i
      (fun r w => (Midway env plan i p w ∧ Sent w.state c.kind r.hash) ∧ Mined w.state r.hash true)
      (fun _ w => Midway env plan i p w) (operatorWrite env plan.sourceNet c) w := by
  have hpay : c.kind ≠ .payout := by
    intro hp
    simp [hp, contractCalls] at hk
  refine safe_mono (safe_operatorWrite (T := fun hash w => Midway env plan i p w ∧
    Sent w.state c.kind hash) Midway.stable' h (fun hash => Midway.stable fun w w' hf hF =>
      (hf.sent _ _).mpr hF) (fun _ hP => hP.inside) ?_ ?_) (fun _ _ hq => hq) ?_
  · intro w _ hP
    refine ⟨hP.status.symm ▸ hb, fun _ => hP.source, fun hp => absurd hp hpay, fun _ => ?_⟩
    rw [hP.status]
    exact (reservedStates_apart hP.stage).2.2.2.2
  · intro hash w w' hs
    exact ⟨hs.before.sent hs hpay hc, hs.sent.mpr (.inr ⟨rfl, rfl⟩)⟩
  · rintro _ w (hx | ⟨hash, hx⟩)
    · exact hx
    · exact hx.1

/-! ## The legs -/

/-- Step 2. -/
theorem escrowLeg_safe {pid : String} {amountUnits : ℕ} (hs : p.status = .liquidityReserved)
    (h : Midway env plan i p w) :
    (sagaDiscipline env).Safe i
      (fun r w => Midway env plan i r.1 w ∧ r.1.status = .submittedOnchain)
      (fun e w => Midway env plan i e.2 w) (escrowLeg env plan pid amountUnits p) w := by
  refine safe_bind (safe_keeping (safe_mono (grantAllowance_safe hs h) ?_ fun _ _ hx => hx))
  intro _ w h
  refine safe_bind (safe_keeping (safe_mono (safe_lift h) ?_ fun _ _ hx => hx.1))
  rintro asset w ⟨h, -⟩
  refine safe_bind (safe_keeping (safe_mono (operatorWrite_safe (by simp [Call.kind, contractCalls])
    (by simp [Call.kind, hs, broadcastable]) (by simp [Call.kind]) h) ?_ fun _ _ hx => hx))
  rintro initTx w ⟨⟨h, -⟩, -⟩
  refine safe_bind (safe_keeping (safe_mono (advance_safe (by simp [hs, canTransition, transitions])
    (by simp [reservedStates]) ⟨rfl, rfl, rfl⟩ ⟨rfl, rfl⟩ rfl rfl ⟨h, by simp⟩) ?_
    fun _ _ hx => hx))
  exact fun row w hq => ⟨hq.1, hq.2.2⟩

/-- Steps 3 and 4. -/
theorem settlementLeg_safe {pid : String} {initTx : TxResult} (hs : p.status = .submittedOnchain)
    (h : Midway env plan i p w) :
    (sagaDiscipline env).Safe i
      (fun r w => Midway env plan i r.1 w ∧ r.1.status = .fxOrSwapCompleted)
      (fun e w => Midway env plan i e.2 w) (settlementLeg env plan pid initTx p) w := by
  refine safe_bind (safe_keeping (safe_mono (advance_safe (by simp [hs, canTransition, transitions])
    (by simp [reservedStates]) ⟨rfl, rfl, rfl⟩ ⟨rfl, rfl⟩ rfl rfl ⟨h, by simp⟩) ?_
    fun _ _ hx => hx))
  rintro p w ⟨h, -, hs⟩
  refine safe_bind (safe_keeping (safe_mono (safe_lift h) ?_ fun _ _ hx => hx.1))
  rintro contracts w ⟨h, -⟩
  refine safe_bind (safe_keeping (safe_mono (safe_lift h) ?_ fun _ _ hx => hx.1))
  rintro decimals w ⟨h, -⟩
  refine safe_bind (safe_keeping (safe_mono (safe_lift h) ?_ fun _ _ hx => hx.1))
  rintro settledUnits w ⟨h, -⟩
  refine safe_bind (safe_keeping (safe_mono (safe_lift h) ?_ fun _ _ hx => hx.1))
  rintro accounts w ⟨h, -⟩
  refine safe_bind (safe_keeping (safe_mono (operatorWrite_safe (by simp [Call.kind, contractCalls])
    (by simp [Call.kind, hs, broadcastable]) (fun _ => hs) h) ?_ fun _ _ hx => hx))
  rintro settleTx w ⟨⟨h, hsent⟩, hm⟩
  refine safe_bind (safe_keeping (safe_mono (advance_safe (by simp [hs, canTransition, transitions])
    (by simp [reservedStates]) ⟨rfl, rfl, rfl⟩ ⟨rfl, rfl⟩ rfl rfl
    ⟨h, fun _ => ⟨settleTx.hash, hsent, hm⟩⟩) ?_ fun _ _ hx => hx))
  exact fun row w hq => ⟨hq.1, hq.2.2⟩

/-- What holds before the recipient's ledger is credited: the chain's part of the payout is
done, and the row carries its hash. -/
def Delivered (p : Payment) (s : State) : Prop :=
  Payable p s ∧ s.ledgerCredits = [] ∧
    (CrossChain p → ∃ h, s.payment.destinationTxHash = some h)

/-- Persisting the hash of the payout the local row carries. -/
theorem Midway.persisted {hash : ℕ} {row : Payment} (h : Midway env plan i p w)
    (hs : p.status = .payoutPending) (hhash : p.destinationTxHash = some hash)
    (hrow : row = w.state.payment.apply { destinationTxHash := some hash })
    (hinv : Inv (⟨{ w.state with payment := row },
      ⟨i, .updatePayment { destinationTxHash := some hash }, .ok row⟩ :: w.history⟩ : World env)) :
    Midway env plan i row ⟨{ w.state with payment := row },
      ⟨i, .updatePayment { destinationTxHash := some hash }, .ok row⟩ :: w.history⟩ := by
  have hold := (h.toHolding.updated ⟨rfl, rfl, rfl⟩ ⟨rfl, rfl⟩ hrow).refresh hinv
  have hst : row.status = .payoutPending := by
    rw [hrow, ← hs, ← h.status]
    rfl
  refine ⟨⟨hold, fun j hj => ?_, fun hc => absurd (hst.symm.trans hc) (by decide), fun hset => ?_,
    fun hr => ?_, fun hb => h.unread ((badRead_cons rfl).mp hb), h.booked⟩,
    h.follows.congr ?_ ?_, hst ▸ by decide⟩
  · have := h.payouts j hj
    rw [hhash] at this
    rw [hrow]
    exact this
  · rw [sentSettle_cons fun _ => rfl] at hset
    rw [recordedSettle_cons fun _ => by simp [movesTo]]
    exact .inr ((h.recorded hset).resolve_left fun hc => absurd (hs.symm.trans hc) (by decide))
  · rw [hst] at hr
    simp [PaymentStatus.rank] at hr
  · rw [hrow, apply_identity, h.identity]
  · rw [hrow, ← h.quote]
    rfl

/-- Once the payout is out the local row is to carry its hash. -/
theorem Midway.broadcast {network : Network} {c : Call} {hash : Hash}
    (hs : p.status = .payoutPending) (hk : c.kind = .payout)
    (hsent : SentBy i (fun w => Midway env plan i p w ∧ Unpaid w.state) network c hash w w') :
    Midway env plan i { p with destinationTxHash := some hash } w' ∧
      w'.state.ledgerCredits = [] := by
  obtain ⟨hP, hunpaid⟩ := hsent.before
  have hsettle : sentSettle i w'.history = sentSettle i w.history := by
    rw [hsent.history]
    refine sentSettle_cons fun _ => ?_
    simp only [sendsKind, sends, Option.any_some, hk]
    rfl
  have hrec : recordedSettle i w'.history = recordedSettle i w.history := by
    rw [hsent.history]
    exact recordedSettle_cons fun _ => by simp [movesTo]
  have hh := hsent.holding hP.toHolding
  refine ⟨⟨⟨⟨hh.inside, hh.status, hh.late, hh.identity, hh.quote, fun j hj => ?_,
    hh.compensationHash⟩, fun j hj => ?_, fun hc => ?_, fun hset => ?_,
    fun hr => hrec.trans (hP.unrecorded hr), fun hb => hP.unread (hsent.badRead.mp hb), ?_⟩,
    hP.follows.congr rfl rfl, hP.stage⟩, hsent.credits.trans hunpaid.2⟩
  · cases hj
    exact hsent.sent.mpr (.inr ⟨rfl, hk⟩)
  · rcases hsent.sent.mp hj with hj | ⟨rfl, -⟩
    · exact absurd hj (hunpaid.1 j)
    · rfl
  · exact absurd (hs.symm.trans hc) (by decide)
  · rw [hrec]
    exact hP.recorded (hsettle ▸ hset)
  · rw [hsent.reservation]
    exact hP.booked

/-- Once the row carries the payout's hash its receipt is waited for, between two events. -/
theorem awaitPayout_safe {hash : Hash} {network : Network} {action action' : String}
    {detail : Detail} {id : String}
    (hhash : p.destinationTxHash = some hash) (hs : p.status = .payoutPending)
    (h : Midway env plan i p w ∧ w.state.ledgerCredits = [] ∧
      w.state.payment.destinationTxHash = some hash) :
    (sagaDiscipline env).Safe i
      (fun row w => (Midway env plan i row w ∧ Delivered row w.state) ∧ row.status = .payoutPending)
      (fun e w => Midway env plan i e.2 w)
      (((audit action detail id).keeping p).bind fun _ =>
        ((confirm network hash).keeping p).bind fun _ =>
          ((audit action' detail id).keeping p).bind fun _ => .ret p) w := by
  have hstable : (sagaDiscipline env).Stable i (fun w => Midway env plan i p w ∧
      w.state.ledgerCredits = [] ∧ w.state.payment.destinationTxHash = some hash) :=
    Midway.stable fun w w' hf hF => by rwa [hf.credits, hf.payment]
  refine safe_bind (safe_keeping (safe_mono (safe_audit hstable h _ _ _) ?_
    fun _ _ hx => hx.1.1))
  intro _ w h
  refine safe_bind (safe_keeping (safe_mono (safe_confirm hstable h _ _) ?_ fun _ _ hx => hx.1))
  rintro _ w ⟨-, h, hm⟩
  refine safe_bind (safe_keeping (safe_mono (safe_audit
    (P := fun w => Midway env plan i p w ∧ (w.state.ledgerCredits = [] ∧
      w.state.payment.destinationTxHash = some hash) ∧ Mined w.state hash true)
    (Midway.stable fun w w' hf hF => ⟨by rw [hf.credits, hf.payment]; exact hF.1,
      hf.evolves.mined hF.2⟩) ⟨h.1, h.2, hm⟩ _ _ _) ?_ fun _ _ hx => hx.1.1))
  rintro _ w ⟨h, ⟨hc, hd⟩, hm⟩
  exact ⟨⟨h, payable_of_mined h.toRunning hhash hm, hc, fun _ => ⟨hash, hd⟩⟩, hs⟩

/-- The payout across networks. -/
theorem bridgeLeg_safe {settledUnits : ℕ} (hs : p.status = .payoutPending)
    (h : Midway env plan i p w ∧ Unpaid w.state) :
    (sagaDiscipline env).Safe i
      (fun row w => (Midway env plan i row w ∧ Delivered row w.state) ∧ row.status = .payoutPending)
      (fun e w => Midway env plan i e.2 w) (bridgeLeg env plan settledUnits p) w := by
  refine safe_bind (safe_keeping (safe_mono (safe_treasuryTokenTransfer
    (P := fun w => Midway env plan i p w ∧ Unpaid w.state)
    (Midway.stable fun w w' hf hF => hF.frame hf) h (fun _ hP => hP.1.inside) ?_) ?_
    fun _ _ hx => hx.1))
  · intro w _ hP c hk
    rw [hk, hP.1.status.trans hs]
    exact ⟨by decide, fun _ => ⟨hP.2.1, hP.2.2, by decide⟩⟩
  rintro hash w' ⟨w₀, c, hk, hsent⟩
  have hrun := Midway.broadcast hs hk hsent
  have hstable : (sagaDiscipline env).Stable i (fun w =>
      Midway env plan i { p with destinationTxHash := some hash } w ∧ w.state.ledgerCredits = []) :=
    Midway.stable fun w w' hf hF => hf.credits.trans hF
  refine safe_bind (safe_keeping (safe_mono (safe_updatePayment hstable hrun
    (fun _ hP => hP.1.inside) ⟨rfl, rfl, rfl⟩ ?_ ⟨rfl, rfl⟩) ?_ fun _ _ hx => hx.1.1))
  · exact fun w hinv hP => hinv.truth.persistPayout (hP.1.payoutHash hash rfl)
  rintro row w₁ ⟨hinv₁, w₂, hP, hrow, rfl⟩
  have hhash : row.destinationTxHash = some hash := by
    rw [hrow]
    rfl
  have hst : row.status = .payoutPending := by
    rw [hrow, ← hs, ← hP.1.status]
    rfl
  exact awaitPayout_safe hhash hst ⟨hP.1.persisted hs rfl hrow hinv₁, hP.2, hhash⟩

/-- The payout of step 5. -/
theorem payRecipient_safe {settledUnits : ℕ} (hs : p.status = .payoutPending)
    (h : Midway env plan i p w ∧ Unpaid w.state) :
    (sagaDiscipline env).Safe i
      (fun row w => (Midway env plan i row w ∧ Delivered row w.state) ∧ row.status = .payoutPending)
      (fun e w => Midway env plan i e.2 w) (payRecipient env plan settledUnits p) w := by
  unfold payRecipient
  split
  · exact bridgeLeg_safe hs h
  · rename_i hcross
    have hx : ¬ CrossChain p := fun hx => hcross (h.1.follows.crosses hx)
    exact ⟨⟨h.1, ⟨fun j hj => absurd hj (h.2.1 j), fun hc => absurd hc hx⟩, h.2.2,
      fun hc => absurd hc hx⟩, hs⟩

/-- Steps 5 and 6. -/
theorem payoutLeg_safe {settledUnits : ℕ} (hs : p.status = .fxOrSwapCompleted)
    (h : Midway env plan i p w) :
    (sagaDiscipline env).Safe i (fun _ w => Leaves i w) (fun e w => Midway env plan i e.2 w)
      (payoutLeg env plan settledUnits p) w := by
  refine safe_bind (safe_keeping (safe_mono (advance_safe (by simp [hs, canTransition, transitions])
    (by simp [reservedStates]) ⟨rfl, rfl, rfl⟩ ⟨rfl, rfl⟩ rfl rfl ⟨h, by simp⟩) ?_
    fun _ _ hx => hx))
  rintro p w ⟨h, hunpaid, hs⟩
  refine safe_bind (safe_mono (payRecipient_safe hs ⟨h, hunpaid⟩) ?_ fun _ _ hx => hx)
  rintro p w ⟨⟨h, hpay, hc, hd⟩, hs⟩
  have hmid : ∀ w : World env, Running i p w → Midway env plan i p w :=
    fun w hw => ⟨hw, h.follows, h.stage⟩
  refine safe_bind (safe_keeping (safe_mono (creditRecipient_safe
    (F := fun w => CrossChain p → ∃ h, w.state.payment.destinationTxHash = some h)
    (fun w w' hu hF => by rwa [hu.payment]) hs ⟨h.toRunning, hpay, hc, hd⟩) ?_
    fun _ w hx => hmid w hx.1))
  rintro _ w ⟨hr, -, hc, hd⟩
  refine safe_bind (safe_keeping (safe_mono (writeReservation_safe
    (F := fun w => w.state.ledgerCredits ≠ [] ∧
      (CrossChain p → ∃ h, w.state.payment.destinationTxHash = some h))
    (fun w w' hu hcr hF => ⟨hcr ▸ hF.1, by rw [hu.payment]; exact hF.2⟩) ⟨hr, hc, hd⟩) ?_
    fun _ w hx => hmid w hx.1.1))
  rintro _ w ⟨⟨hr, hc, hd⟩, hres⟩
  exact safe_keeping (safe_mono (markSettled_safe hs ⟨rfl, rfl, rfl⟩ ⟨rfl, rfl⟩ rfl
    (fun _ hj => by cases hj) ⟨hr, hc, hd, fun _ => hres⟩) (fun _ _ hq => hq)
    fun _ w hx => hmid w hx.1)

/-- The body of the `try` of an execution. -/
theorem settle_safe {pid : String} {amountUnits : ℕ} (hs : p.status = .liquidityReserved)
    (h : Midway env plan i p w) :
    (sagaDiscipline env).Safe i (fun _ w => Leaves i w) (fun e w => Midway env plan i e.2 w)
      (settle env plan pid amountUnits p) w := by
  refine safe_bind (safe_mono (escrowLeg_safe hs h) ?_ fun _ _ hx => hx)
  rintro ⟨p, initTx⟩ w ⟨h, hs⟩
  refine safe_bind (safe_mono (settlementLeg_safe hs h) ?_ fun _ _ hx => hx)
  rintro ⟨p, settledUnits⟩ w ⟨h, hs⟩
  exact payoutLeg_safe hs h

end SettlementOS.Analysis
