import SettlementOS.Analysis.Recovery

/-!
# An execution, from the claim to the end

At `APPROVED` an attempt has the lease but not the payment to itself: a cancel may commit
between any two of its statements. `Claimed` is what it knows there. The reservation asks for
the lease again and the move to `LIQUIDITY_RESERVED` for the status, so a cancelled payment is
never driven on; but a cancel between the two finds the reservation written.
-/

set_option autoImplicit false

namespace SettlementOS.Analysis

open SettlementOS.Computation Model Program Discipline

variable {env : Env} {plan : Plan} {i : ℕ} {p : Payment} {w w' : World env}

/-! ## The plan -/

/-- The route an execution takes is one of the quote's. -/
theorem selectedRoute_mem {route : RouteOption} (h : selectedRoute p = .ok route) :
    ∃ routes, p.quoteJson = some routes ∧ route ∈ routes := by
  unfold selectedRoute at h
  cases hq : p.quoteJson with
  | none => simp [hq] at h
  | some routes =>
    simp only [hq] at h
    refine ⟨routes, rfl, ?_⟩
    split at h
    · rename_i r hr
      cases h
      simp only [Option.orElse_eq_orElse, Option.orElse_eq_or, Option.or_eq_some_iff] at hr
      rcases hr with hf | ⟨-, hf⟩
      · exact List.mem_of_find?_eq_some hf
      · exact List.mem_of_mem_head? hf
    · cases h

/-- What a plan is made of. -/
structure Made (env : Env) (p : Payment) (plan : Plan) : Prop where
  route : selectedRoute p = .ok plan.route
  sourceNet : plan.sourceNet = plan.route.sourceNetwork
  destNet : plan.destNet = plan.route.destinationNetwork
  sourceAsset : assetForCurrency p.sourceCurrency = .ok plan.sourceAsset
  contracts : ∃ net, env.contracts plan.sourceNet = .ok net ∧
    plan.sourceToken = net.tokens plan.sourceAsset.symbol
  senderWallet : walletOnNetwork env.sender.wallets plan.sourceNet = some plan.senderWallet

/-- A plan is made of what it names. -/
theorem Plan.made (h : Plan.make env p = .ok plan) : Made env p plan := by
  unfold Plan.make at h
  cases hr : selectedRoute p with
  | error e => simp [hr, bind, Except.bind] at h
  | ok route =>
    cases hs : assetForCurrency p.sourceCurrency with
    | error e => simp [hr, hs, bind, Except.bind] at h
    | ok sourceAsset =>
      cases hd : assetForCurrency p.destinationCurrency with
      | error e => simp [hr, hs, hd, bind, Except.bind] at h
      | ok destAsset =>
        cases hn : env.contracts route.sourceNetwork with
        | error e => simp [hr, hs, hd, hn, bind, Except.bind] at h
        | ok net =>
          simp only [hr, hs, hd, hn, bind, Except.bind] at h
          split at h
          · rename_i senderWallet recipientWallet hsw _
            cases h
            exact ⟨hr, rfl, rfl, hs, ⟨net, hn, rfl⟩, hsw⟩
          · cases h

/-- The plan looks its token up where the payment's token is. -/
theorem Made.sourceToken (h : Made env p plan) (hsource : plan.sourceNet = p.sourceNetwork) :
    sourceToken env p = plan.sourceToken := by
  obtain ⟨net, hnet, htok⟩ := h.contracts
  have hasset := h.sourceAsset
  unfold assetForCurrency at hasset
  unfold Env.contracts at hnet
  rw [hsource] at hnet
  cases hc : currencyToAsset p.sourceCurrency with
  | none => simp [hc] at hasset
  | some symbol =>
    cases hd : env.deployments.networks p.sourceNetwork with
    | none => simp [hd] at hnet
    | some net' =>
      simp only [hc, Except.ok.injEq] at hasset
      simp only [hd, Except.ok.injEq] at hnet
      subst hnet
      rw [htok, ← hasset]
      simp only [Analysis.sourceToken, hc, hd, Option.bind_some]
      cases symbol <;> rfl

/-- A plan whose token is there and whose amount can be read can be undone. -/
theorem Made.follows (h : Made env p plan) (hsource : plan.sourceNet = p.sourceNetwork)
    {decimals units : ℕ} (hd : Env.decimalsOf plan.sourceToken = .ok decimals)
    (hu : toBaseUnits p.amount decimals = .ok units) : Follows env plan p where
  source := hsource
  crosses hx := by
    obtain ⟨route, hr, hne⟩ := hx
    rw [h.route, Except.ok.injEq] at hr
    subst hr
    simpa [Plan.isCrossChain, h.sourceNet, h.destNet] using hne
  compensable := by
    obtain ⟨net, hnet, htok⟩ := h.contracts
    have hw := h.senderWallet
    rw [hsource] at hnet hw
    rw [htok] at hd
    exact ⟨_, by simp [compensationContextFor, h.sourceAsset, hnet, hw, hd, hu, bind, Except.bind]
                 rfl⟩

/-! ## At `APPROVED` -/

/-- Attempt `i` has claimed a payment at `APPROVED`, which may have been cancelled since. -/
structure Claimed (i : ℕ) (p : Payment) (w : World env) : Prop where
  inside : inside i w.history = true
  status : w.state.payment.status = .approved ∨ w.state.payment.status = .cancelled
  current : p.status = .approved ∨
    (p.status = .cancelled ∧ w.state.payment.status = .cancelled)
  identity : identity w.state.payment = identity p
  quote : quoteOf w.state.payment = quoteOf p
  unsent : sentSettle i w.history = false
  unrecorded : recordedSettle i w.history = false
  spared : w.state.payment.status = .cancelled → CancelSpares w.history → ¬ Reserved w.state

/-- Nothing is held back for the payment, unless something else has gone wrong. -/
def Unreserved (w : World env) : Prop :=
  DbOk w.history → CancelSpares w.history → ¬ Reserved w.state

namespace Claimed

/-- An attempt that has claimed has claimed still, whatever the others do. -/
theorem rely (h : Claimed i p w) (hr : Rely i w w') : Claimed i p w' := by
  have ha := hr.alone h.inside
  have hres : Reserved w'.state ↔ Reserved w.state := by rw [Reserved, Reserved, ha.reservation]
  have hlate : 2 ≤ w.state.payment.status.rank := by
    rcases h.status with hs | hs <;> rw [hs] <;> decide
  have hstatus : w'.state.payment.status = .approved ∨ w'.state.payment.status = .cancelled := by
    rcases ha.row with hrow | ⟨-, hs, -⟩
    · exact hrow ▸ h.status
    · exact .inr hs
  refine ⟨hr.inside.trans h.inside, hstatus, h.current.imp_right fun hc => ⟨hc.1, ?_⟩,
    hr.evolves.identity.trans h.identity, (hr.evolves.quote hlate).trans h.quote,
    hr.sentSettle.trans h.unsent, hr.recorded.trans h.unrecorded, fun hs hcs => ?_⟩
  · rw [hr.evolves.status.terminal (by rw [hc.2]; decide), hc.2]
  · rw [hres]
    rcases ha.row with hrow | ⟨-, -, hc⟩
    · exact h.spared (hrow ▸ hs) (hcs.of_suffix hr.history)
    · exact fun hr' => hc hr' hcs

/-- With anything else that follows from the reservation and the history, that is stable. -/
theorem stable {F : World env → Prop} (hF : ∀ w w' : World env,
      w'.state.reservation = w.state.reservation → w.history <:+ w'.history → F w → F w') :
    (sagaDiscipline env).Stable i fun w => Claimed i p w ∧ F w := by
  intro w w' h _ hr
  have hres := (Rely.alone hr h.1.inside).reservation
  exact ⟨h.1.rely hr, hF w w' hres (Rely.history hr) h.2⟩

/-- That nothing is held back for the payment is stable. -/
theorem stable_unreserved : (sagaDiscipline env).Stable i fun w =>
    Claimed i p w ∧ Unreserved w :=
  stable fun w w' hres hs hF hok hcs hr => hF (hok.of_suffix hs) (hcs.of_suffix hs)
    (by rwa [Reserved, hres] at hr)

/-- A payment may be left at `APPROVED`, or where it was cancelled. -/
theorem leaves (h : Claimed i p w) (hu : Unreserved w) : Leaves i w where
  inside := h.inside
  rest hok := by
    refine ⟨?_, ?_, fun hcs hr => absurd hr (hu hok hcs), ?_⟩ <;>
      rcases h.status with hs | hs <;> simp [hs]

/-- A cancelled payment may be left as it is. -/
theorem leaves_cancelled (h : Claimed i p w) (hs : w.state.payment.status = .cancelled) :
    Leaves i w where
  inside := h.inside
  rest _ := by
    refine ⟨?_, ?_, fun hcs hr => absurd hr (h.spared hs hcs), ?_⟩ <;> simp [hs]

/-- Nothing has been sent for the payment, and nobody was paid. -/
theorem untouched (h : Claimed i p w) (hinv : Inv w) :
    (∀ k j, ¬ Sent w.state k j) ∧ w.state.ledgerCredits = [] := by
  refine ⟨fun k j hj => ?_, ?_⟩
  · have := hinv.truth.kinds k j hj
    rcases h.status with hs | hs <;> simp [hs, broadcastable] at this
  · by_contra hc
    rcases hinv.truth.credit hc with hs | hs <;> rcases h.status with hs' | hs' <;>
      rw [hs'] at hs <;> cases hs

/-- Writing a column that is neither the status, the lease nor the quote leaves the attempt with a
true copy of the row. -/
theorem updated (h : Claimed i p w) {data : PaymentPatch} (hd : Plain data) {row : Payment}
    (hrow : row = w.state.payment.apply data) :
    Claimed i row (⟨{ w.state with payment := row },
      ⟨i, .updatePayment data, .ok row⟩ :: w.history⟩ : World env) := by
  have hst : row.status = w.state.payment.status := by
    rw [hrow]
    simp [Payment.apply, hd.status]
  exact ⟨(inside_cons fun _ => ⟨rfl, rfl⟩).trans h.inside, hst ▸ h.status,
    hst ▸ h.status.imp_right fun hs => ⟨hs, hs⟩, rfl, rfl,
    (sentSettle_cons fun _ => rfl).trans h.unsent,
    (recordedSettle_cons fun _ => by simp [movesTo]).trans h.unrecorded,
    fun hs hcs => h.spared (hst ▸ hs) hcs.1⟩

end Claimed

/-- The route's destination network is written to the row. -/
theorem alignDestination_safe {destNet : Network} (h : Claimed i p w ∧ Unreserved w) :
    (sagaDiscipline env).Safe i
      (fun row w => (Claimed i row w ∧ Unreserved w) ∧ identity row = identity p ∧
        quoteOf row = quoteOf p)
      (fun _ w => Leaves i w) (alignDestination p destNet) w := by
  unfold alignDestination
  split
  · refine safe_mono (safe_updatePayment Claimed.stable_unreserved h (fun _ hP => hP.1.inside)
      ⟨rfl, rfl, rfl⟩ (fun w hinv _ => ?_) ⟨rfl, rfl⟩) ?_ fun _ w hx => hx.1.1.leaves hx.1.2
    · exact hinv.truth.congr ⟨rfl, rfl, rfl, rfl, rfl⟩ rfl rfl rfl rfl
    · rintro row w' ⟨-, w, hP, hrow, rfl⟩
      refine ⟨⟨hP.1.updated ⟨rfl, rfl, rfl⟩ hrow,
        fun hok hcs => hP.2 hok.tail hcs.1⟩, ?_, ?_⟩
      · rw [hrow, apply_identity, hP.1.identity]
      · rw [← hP.1.quote, hrow]
        rfl
  · exact ⟨h, rfl, rfl⟩

/-- Failing the payment for a reason, before anything was reserved. -/
theorem failWith_safe {reason : String} {Q : Unit → World env → Prop}
    (h : Claimed i p w ∧ Unreserved w) :
    (sagaDiscipline env).Safe i Q (fun _ w => Leaves i w) (failWith p reason) w := by
  rcases h.1.current with hs | ⟨hs, -⟩
  · refine safe_bind (safe_mono (safe_transitionStatus Claimed.stable_unreserved h
      (by simp [hs, canTransition, transitions]) ⟨rfl, rfl, rfl⟩ ⟨rfl, rfl⟩
      (fun _ hP => hP.1.inside) ?_) ?_ fun _ w hx => hx.1.1.leaves hx.1.2)
    · intro w hinv hP hst
      obtain ⟨hsent, hc⟩ := hP.1.untouched hinv
      exact ⟨grounds_silent (by decide) (by simp [hst, hs, broadcastable]) hc rfl rfl
        (fun h => by cases h) (fun _ h => by cases h), fun _ j hj => absurd hj (hsent _ j),
        fun _ => .inr (by decide)⟩
    · rintro row w' ⟨w₀, hm⟩
      have hst := hm.row_status ⟨rfl, rfl, rfl⟩
      refine ⟨(hm.inside_eq i).trans hm.before.1.inside, fun hok => ?_⟩
      refine ⟨?_, ?_, fun hcs hr => absurd (hm.reserved.mp hr)
        (hm.before.2 (hm.dbOk hok) (hm.cancelSpares hcs)), ?_⟩ <;> simp [hm.row_eq, hst]
  · have hill : canTransition p.status .failed = false := by rw [hs]; rfl
    unfold failWith setStatus transitionStatus
    rw [hill]
    exact h.1.leaves h.2

/-- Releasing a reservation there is none of yet. -/
theorem releaseClaimed_safe {X : Err → World env → Prop} (h : Claimed i p w ∧ Unreserved w) :
    (sagaDiscipline env).Safe i (fun _ w => Claimed i p w ∧ Unreserved w) X
      (call (.updateReservation .released)).ignoring w := by
  refine safe_ignoring (safe_mono (safe_updateReservation Claimed.stable_unreserved h
    (fun _ hP => hP.1.inside) _) ?_ fun _ _ hx => hx.1)
  rintro _ w' ⟨-, w, r, hP, hr, rfl⟩
  have hfree : ¬ Reserved { w.state with reservation := some { r with status := .released } } := by
    simp [Reserved]
  have hP := hP.1
  exact ⟨⟨(inside_cons fun _ => ⟨rfl, rfl⟩).trans hP.inside, hP.status, hP.current, hP.identity,
    hP.quote, (sentSettle_cons fun _ => rfl).trans hP.unsent,
    (recordedSettle_cons fun _ => by simp [movesTo]).trans hP.unrecorded, fun _ _ => hfree⟩,
    fun _ _ => hfree⟩

section Figures

variable {P : World env → Prop} (hst : (sagaDiscipline env).Stable i P) (hw : P w)
include hst hw

/-- The liquidity on a network. -/
theorem availableLiquidity_safe (symbol : AssetSymbol) (network : Network) :
    (sagaDiscipline env).Safe i (fun _ w => P w) (fun _ w => P w)
      (availableLiquidity env symbol network) w := by
  unfold availableLiquidity
  split
  · exact hw
  · refine safe_bind (safe_mono (safe_lift hw) ?_ fun _ _ hx => hx.1)
    rintro token w ⟨hw, -⟩
    exact safe_bind (safe_mono (safe_freeTreasuryBalance hst hw _ _) (fun _ _ hq => hq)
      fun _ _ hx => hx)

end Figures

/-- Step 0. -/
theorem autoRecall_safe (h : Claimed i p w ∧ Unreserved w) :
    (sagaDiscipline env).Safe i (fun _ w => Claimed i p w ∧ Unreserved w)
      (fun _ w => Leaves i w) (autoRecall env p plan) w := by
  have hst : (sagaDiscipline env).Stable i (fun w => Claimed i p w ∧ Unreserved w) :=
    Claimed.stable_unreserved
  refine safe_bind (safe_mono (availableLiquidity_safe hst h _ _) ?_
    fun _ w hx => hx.1.leaves hx.2)
  intro liq w h
  refine safe_bind (safe_mono (safe_lift (P := fun w => Claimed i p w ∧ Unreserved w) h) ?_
    fun _ w hx => hx.1.1.leaves hx.1.2)
  rintro needed w ⟨h, -⟩
  split
  · refine safe_bind (safe_mono (safe_parkedBalance hst h _ _) ?_ fun _ w hx => hx.1.leaves hx.2)
    intro parked w h
    split
    · refine safe_handle (safe_mono (safe_recallForPayment hst h _ _ _) (fun _ _ hq => hq) ?_)
      intro e w h
      split
      · exact h
      · refine safe_bind (safe_mono (releaseClaimed_safe h) ?_ fun _ _ hx => hx)
        exact fun _ _ h => failWith_safe h
    · exact h
  · exact h

/-- Step 1, the check. -/
theorem checkLiquidity_safe (h : Claimed i p w ∧ Unreserved w) :
    (sagaDiscipline env).Safe i (fun _ w => Claimed i p w ∧ Unreserved w)
      (fun _ w => Leaves i w) (checkLiquidity env p plan) w := by
  have hst : (sagaDiscipline env).Stable i (fun w => Claimed i p w ∧ Unreserved w) :=
    Claimed.stable_unreserved
  refine safe_bind (safe_mono (availableLiquidity_safe hst h _ _) ?_
    fun _ w hx => hx.1.leaves hx.2)
  intro liq w h
  refine safe_bind (safe_mono (safe_lift (P := fun w => Claimed i p w ∧ Unreserved w) h) ?_
    fun _ w hx => hx.1.1.leaves hx.1.2)
  rintro needed w ⟨h, -⟩
  split
  · exact failWith_safe h
  · exact h

/-- The reservation has been written. -/
def Booked (w : World env) : Prop := w.state.reservation ≠ none

/-- That it is booked is stable. -/
theorem Claimed.stable_booked : (sagaDiscipline env).Stable i fun w =>
    Claimed i p w ∧ Booked w :=
  Claimed.stable fun _ _ hres _ hF => by rwa [Booked, hres]

/-- Step 1, the reservation: it is written at `APPROVED`, under the lease. -/
theorem reserveLiquidity_safe (h : Claimed i p w ∧ Unreserved w) :
    (sagaDiscipline env).Safe i (fun _ w => (Claimed i p w ∧ Booked w) ∧ p.status = .approved)
      (fun _ w => Leaves i w) (reserveLiquidity i p plan) w := by
  have hreserve : (sagaDiscipline env).Safe i
      (fun held w => if held then (Claimed i p w ∧ Booked w) ∧ p.status = .approved
        else Claimed i p w ∧ Unreserved w)
      (fun _ w => Claimed i p w ∧ Unreserved w)
      (call (.reserve i plan.destAsset.symbol plan.destNet plan.destAmount)) w := by
    refine safe_mono (safe_inside Claimed.stable_unreserved h (fun _ hP => hP.1.inside)
      (fun e => rfl) ?_ ?_) ?_ fun _ _ hx => hx.1
    · intro c s e s' h
      simp [Stmt.perform] at h
    · intro w c held s' hinv hP h
      simp only [Stmt.perform, State.reserve, Option.some.injEq, Prod.mk.injEq] at h
      split at h
      · obtain ⟨hheld, rfl⟩ := h
        cases hheld
        exact ⟨⟨.refl _, rfl, fun _ => rfl, .refl _, fun _ => .inl rfl, fun _ => rfl⟩,
          inv_of_write hinv hP.1.inside rfl rfl rfl rfl rfl rfl rfl rfl rfl rfl
            (hinv.truth.reserve ⟨rfl, rfl, rfl, rfl, rfl⟩)
            (by simp [reservedIn, reservesAs, Reserved])⟩
      · obtain ⟨hheld, rfl⟩ := h
        cases hheld
        exact ⟨.refl _, inv_reads hinv (.refl _) ⟨rfl, rfl, rfl, rfl, rfl⟩ fun hb =>
          .inl ((badRead_cons rfl).mp hb)⟩
    · rintro held w' ⟨hinv', w, c, s', -, ⟨hP, hu⟩, h, rfl⟩
      simp only [Stmt.perform, State.reserve, Option.some.injEq, Prod.mk.injEq] at h
      split at h
      · rename_i hlease
        obtain ⟨hheld, rfl⟩ := h
        cases hheld
        have hp : p.status = .approved := by
          rcases hP.current with hs | ⟨-, hs⟩
          · exact hs
          · rw [hlease.1] at hs
            cases hs
        refine ⟨⟨⟨(inside_cons fun _ => ⟨rfl, rfl⟩).trans hP.inside, hP.status, .inl hp,
          hP.identity, hP.quote, (sentSettle_cons fun _ => rfl).trans hP.unsent,
          (recordedSettle_cons fun _ => by simp [movesTo]).trans hP.unrecorded, fun hs => ?_⟩,
          by simp [Booked]⟩, hp⟩
        have := hlease.1.symm.trans hs
        cases this
      · obtain ⟨hheld, rfl⟩ := h
        cases hheld
        exact Claimed.stable_unreserved w _ ⟨hP, hu⟩ hinv' (rely_reads (.refl _)
          ⟨rfl, rfl, rfl, rfl, rfl⟩ i fun _ => (badRead_cons rfl).mp)
  refine safe_bind (safe_mono hreserve ?_ fun _ w hx => hx.1.leaves hx.2)
  intro held w h
  cases held with
  | true => exact h
  | false =>
    obtain ⟨hc, hu⟩ := h
    exact hc.leaves hu

/-- The move to `LIQUIDITY_RESERVED`: from here on the attempt has the payment to itself. -/
theorem enterReserved_safe {detail : Detail} (hs : p.status = .approved)
    (h : Claimed i p w ∧ Booked w) :
    (sagaDiscipline env).Safe i
      (fun row w => Running i row w ∧ row.status = .liquidityReserved ∧
        identity row = identity p ∧ quoteOf row = quoteOf p)
      (fun _ w => Leaves i w) (setStatus p .liquidityReserved {} detail) w := by
  refine safe_mono (safe_transitionStatus Claimed.stable_booked h
    (by simp [hs, canTransition, transitions]) ⟨rfl, rfl, rfl⟩ ⟨rfl, rfl⟩
    (fun _ hP => hP.1.inside) ?_) ?_ ?_
  · intro w hinv hP hst
    obtain ⟨hsent, hc⟩ := hP.1.untouched hinv
    refine ⟨⟨by simp [hst, hs, broadcastable], fun h => absurd hc h, fun h => absurd h (by decide),
      by simp, fun h => absurd h (by decide), by simp, fun h => (by cases h), fun h => (by cases h),
      fun h => (by cases h), fun _ => hP.2, fun h => absurd hc h, by simp⟩,
      fun h => absurd h (by decide), fun hb => ?_⟩
    have := hinv.trace.badRead hb
    rw [hst, hs] at this
    exact absurd this (by decide)
  · rintro row w' ⟨w₀, hm⟩
    obtain ⟨hP, hbooked⟩ := hm.before
    have hst := hm.row_status ⟨rfl, rfl, rfl⟩
    obtain ⟨hsent, -⟩ := hP.untouched hm.inv
    have hunsent : sentSettle i w'.history = false := by
      rw [hm.history]
      exact (sentSettle_cons fun _ => rfl).trans hP.unsent
    have hunrec : recordedSettle i w'.history = false := by
      rw [hm.history]
      exact (recordedSettle_cons fun _ => by simp [movesTo]).trans hP.unrecorded
    refine ⟨⟨hm.holding ⟨rfl, rfl, rfl⟩ hP.inside (by decide),
      fun j hj => absurd (hm.sent.mp hj) (hsent _ j),
      fun hc j hj => absurd (hm.sent.mp hj) (hsent _ j), fun hset => ?_, fun _ => hunrec,
      fun hb => ?_, ?_⟩, hst, ?_, ?_⟩
    · rw [hunsent] at hset
      cases hset
    · have := hm.inv.trace.badRead (hm.badRead.mp hb)
      rw [hm.found, hs] at this
      exact absurd this (by decide)
    · rw [hm.state]
      exact hbooked
    · rw [hm.written, apply_identity, hP.identity]
    · rw [hm.written, apply_quoteOf _ _ _ rfl rfl, hP.quote]
  · rintro e w ⟨⟨h, -⟩, hx⟩
    rcases h.status with hs' | hs'
    · exact leaves_of_failure h.inside (hx (hs'.trans hs.symm))
    · exact h.leaves_cancelled hs'

/-- A payment whose source token is not deployed may be left at `LIQUIDITY_RESERVED`. -/
theorem Running.leaves_stuck (h : Running i p w) (hs : p.status = .liquidityReserved)
    (htok : sourceToken env p = none) : Leaves i w where
  inside := h.inside
  rest _ := by
    have hst := h.status.trans hs
    have htok' : sourceToken env w.state.payment = none := by
      have := h.identity
      simp only [identity, Prod.mk.injEq] at this
      rw [← htok, sourceToken, sourceToken, this.2.2.2.1, this.2.2.2.2.2]
    refine ⟨?_, fun _ => htok', fun _ _ => .inr hst, ?_⟩ <;> simp [hst]

/-- `runExecution`: however it ends, the payment is where it may be left. -/
theorem runExecution_safe
    (hroutes : ∀ routes, p.quoteJson = some routes → ∀ r ∈ routes,
      r.sourceNetwork = p.sourceNetwork)
    (husable : ∃ units, parseAmount p.amount p.sourceCurrency = .ok units)
    (h : Claimed i p w ∧ Unreserved w) :
    (sagaDiscipline env).Safe i (fun _ w => Leaves i w) (fun _ w => Leaves i w)
      (runExecution env i p) w := by
  refine safe_bind (safe_mono (safe_lift (P := fun w => Claimed i p w ∧ Unreserved w) h) ?_
    fun _ w hx => hx.1.1.leaves hx.1.2)
  rintro plan w ⟨h, hmake⟩
  have hmade := Plan.made hmake
  have hsource : plan.sourceNet = p.sourceNetwork := by
    obtain ⟨routes, hq, hmem⟩ := selectedRoute_mem hmade.route
    rw [hmade.sourceNet, hroutes routes hq _ hmem]
  refine safe_bind (safe_mono (alignDestination_safe h) ?_ fun _ _ hx => hx)
  rintro q w ⟨h, hid, hquote⟩
  refine safe_bind (safe_mono (autoRecall_safe h) ?_ fun _ _ hx => hx)
  intro _ w h
  refine safe_bind (safe_mono (checkLiquidity_safe h) ?_ fun _ _ hx => hx)
  intro _ w h
  refine safe_bind (safe_mono (reserveLiquidity_safe h) ?_ fun _ _ hx => hx)
  rintro _ w ⟨h, hs⟩
  refine safe_bind (safe_mono (enterReserved_safe hs h) ?_ fun _ _ hx => hx)
  rintro row w ⟨h, hst, hid', hquote'⟩
  have hrow : identity row = identity p := hid'.trans hid
  have hquoteRow : quoteOf row = quoteOf p := hquote'.trans hquote
  have hcols := hrow
  simp only [identity, Prod.mk.injEq] at hcols
  -- from here to the `try`, what is thrown is not recovered from
  cases hd : Env.decimalsOf plan.sourceToken with
  | error e =>
    refine h.leaves_stuck hst ?_
    have htok : plan.sourceToken = none := by
      cases ht : plan.sourceToken with
      | none => rfl
      | some token => simp [ht, Env.decimalsOf] at hd
    rw [← htok, ← hmade.sourceToken hsource, sourceToken, sourceToken, hcols.2.2.2.1,
      hcols.2.2.2.2.2]
  | ok decimals =>
    obtain ⟨_, hunits⟩ := husable
    obtain ⟨units, hu⟩ := toBaseUnits_of_parseAmount hunits decimals
    have hfollows : Follows env plan row :=
      (hmade.follows hsource hd hu).congr hrow hquoteRow
    rw [← hcols.2.2.1] at hu
    simp only [lift, hu, Prog.ofExcept_ok, Prog.bind_eq, Prog.ret_bind]
    exact safe_handle (safe_mono (settle_safe hst ⟨h, hfollows, hst ▸ by decide⟩)
      (fun _ _ hq => hq) fun _ _ hx => recover_safe hx)

end SettlementOS.Analysis
