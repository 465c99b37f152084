import SettlementOS.Analysis.Attempts

/-!
# The requests, and the discipline of the service

Quotes, reviews, cancels and the compliance gate move a payment that nobody is inside of, with
one exception: a cancel at `APPROVED` may take the payment from the attempt that has claimed
it. With these, every request keeps the discipline (`saga_holds`), so the invariant holds in
every reachable world and every request ends outside its leased section.
-/

set_option autoImplicit false

namespace SettlementOS.Analysis

open SettlementOS.Computation Model Program Discipline

variable {env : Env} {i : ℕ} {p : Payment} {w w' : World env}

/-! ## Status changes from outside -/

/-- The statuses the requests lead to that hold no lease. -/
def frontStates : List PaymentStatus :=
  [.quoted, .compliancePending, .manualReview, .approved, .rejected, .cancelled]

/-- What distinguishes a status change from outside. -/
theorem front_facts {s next : PaymentStatus} (hs : s ∈ cancellableStates)
    (hcan : canTransition s next = true) (hn : next ∈ frontStates) :
    broadcastable s = [] ∧ s ∉ leaseReleaseStates ∧ s ≠ .confirmedOnchain ∧
      (s ≠ .approved → s.rank < 4) ∧ (s = .approved → next = .cancelled) ∧
      s ≠ .payoutPending ∧ s ≠ .liquidityReserved ∧ s ≠ .settled := by
  revert hs hcan hn
  cases s <;> cases next <;> decide

/-- Where a status change from outside may start, and which of them write the quote. -/
theorem front_from {s next : PaymentStatus} {b : Prop} (hcan : canTransition s next = true)
    (hn : next ∈ frontStates) (hs : next = .cancelled → s ∈ cancellableStates)
    (hq : next ∉ [PaymentStatus.quoted, .compliancePending] → b) :
    s ∈ cancellableStates ∧ (2 ≤ s.rank → b) := by
  have hfacts : (next ≠ .cancelled → s ∈ cancellableStates) ∧
      (2 ≤ s.rank → next ∉ [PaymentStatus.quoted, .compliancePending]) := by
    revert hcan hn
    clear hs hq
    cases s <;> cases next <;> decide
  refine ⟨?_, fun hr => hq (hfacts.2 hr)⟩
  by_cases hc : next = .cancelled
  · exact hs hc
  · exact hfacts.1 hc

/-- The first statuses are none of those an execution leaves behind. -/
theorem frontStates_apart {next : PaymentStatus} (hn : next ∈ frontStates) :
    next ∈ silentStates ∧ next ∉ strandedStates ∧ next ≠ .refunded ∧ next ≠ .settled ∧
      next ≠ .liquidityReserved ∧
      next ∉ [PaymentStatus.submittedOnchain, .confirmedOnchain, .fxOrSwapCompleted] := by
  revert hn
  cases next <;> decide

section Front

variable {next : PaymentStatus} {opts : TransitionOpts} (events : List AuditRecord)

/-- The entry of a status change from outside. -/
def frontEntry (i : ℕ) (w : World env) (next : PaymentStatus) (opts : TransitionOpts) :
    Entry sagaEffects :=
  ⟨i, .transition w.state.payment.status next opts,
    .ok (some (w.state.payment.apply (transitionData next opts)))⟩

/-- The world after it. -/
def frontWorld (i : ℕ) (w : World env) (next : PaymentStatus) (opts : TransitionOpts)
    (events : List AuditRecord) : World env where
  state := { w.state with
    payment := w.state.payment.apply (transitionData next opts)
    auditEvents := events }
  history := frontEntry i w next opts :: w.history

/-- What a status change from outside finds: nobody was paid and nothing was misread, and only at
`APPROVED`, which it leaves by a cancel, may somebody be inside. -/
structure Front (w : World env) (next : PaymentStatus) : Prop where
  credits : w.state.ledgerCredits = []
  unread : ¬ BadRead w.history
  nobody : w.state.payment.status ≠ .approved → ∀ j, inside j w.history = false
  free : w.state.payment.status ≠ .approved → w.state.payment.executionLeaseId = none
  cancel : w.state.payment.status = .approved → next = .cancelled

/-- The invariant says so of every status the requests start at. -/
theorem front_of_inv (hinv : Inv w) (hs : w.state.payment.status ∈ cancellableStates)
    (hcan : canTransition w.state.payment.status next = true) (hn : next ∈ frontStates) :
    Front w next := by
  obtain ⟨-, hnrel, hnconf, hlow, hcancel, hnpay, -, hnset⟩ := front_facts hs hcan hn
  refine ⟨?_, fun hb => ?_, fun hne j => ?_, fun hne => ?_, hcancel⟩
  · by_contra hc
    rcases hinv.truth.credit hc with h | h
    · exact hnpay h
    · exact hnset h
  · rcases hinv.trace.badRead hb with h | h
    · exact hnconf h
    · refine hnrel ?_
      revert h
      generalize w.state.payment.status = s
      cases s <;> decide
  · rw [← Bool.not_eq_true]
    intro hj
    exact absurd (hinv.lease.early (.inl ⟨j, hj⟩)) (Nat.not_le.mpr (hlow hne))
  · by_contra hl
    exact absurd (hinv.lease.early (.inr hl)) (Nat.not_le.mpr (hlow hne))

/-- A status change is neither a claim nor a release. -/
theorem inside_frontEntry (j : ℕ) :
    inside j (frontEntry i w next opts :: w.history) = inside j w.history :=
  inside_cons fun _ => ⟨rfl, rfl⟩

/-- The lease is as before, or was taken by a cancel. -/
theorem Front.lease (h : Front w next) (hinv : Inv w) (hd : Plain opts.data) :
    LeaseInv (frontWorld i w next opts events).state
      (frontWorld i w next opts events).history := by
  have hst := apply_status w.state.payment next opts hd.status
  have hl := apply_executionLeaseId w.state.payment next opts hd.lease
  simp only [frontWorld]
  refine ⟨?_, fun j hj => ?_, ?_, ?_⟩
  · simpa only [inside_frontEntry] using hinv.lease.alone
  · rw [inside_frontEntry] at hj
    by_cases ha : w.state.payment.status = .approved
    · right
      simp only [hst]
      rw [h.cancel ha]
      decide
    · rw [h.nobody ha] at hj
      cases hj
  · simp only [hl, hst]
    split
    · exact fun hne => absurd rfl hne
    · exact fun _ => by assumption
  · simp only [inside_frontEntry, hl, hst]
    intro hheld
    by_cases ha : w.state.payment.status = .approved
    · rw [h.cancel ha]
      decide
    · rcases hheld with ⟨j, hj⟩ | hne
      · rw [h.nobody ha] at hj
        cases hj
      · split at hne
        · exact absurd rfl hne
        · exact absurd (h.free ha) hne

/-- A payment at rest stays so. -/
theorem rest_frontWorld (hinv : Inv w) (hs : w.state.payment.status ∈ cancellableStates)
    (hcan : canTransition w.state.payment.status next = true) (hn : next ∈ frontStates)
    (hd : Plain opts.data) (hno : ∀ j, inside j (frontWorld i w next opts events).history = false)
    (hok : DbOk (frontWorld i w next opts events).history) :
    RestAt env (frontWorld i w next opts events).state
      (frontWorld i w next opts events).history := by
  have hst := apply_status w.state.payment next opts hd.status
  obtain ⟨-, -, -, -, -, hnpay, hnliq, -⟩ := front_facts hs hcan hn
  obtain ⟨-, -, -, hnsettled, hnliq', hnmoving⟩ := frontStates_apart hn
  have hrest := hinv.rest (fun j => (inside_frontEntry j).symm.trans (hno j)) hok.tail
  simp only [frontWorld]
  refine ⟨?_, ?_, fun hcs hr => ?_, ?_⟩ <;> simp only [hst]
  · exact hnmoving
  · exact fun h => absurd h hnliq'
  · rcases hrest.spared hcs.1 hr with h | h
    · exact absurd h hnpay
    · exact absurd h hnliq
  · exact fun h => absurd h hnsettled

/-- All that an attempt that is inside may see of it is a cancel. -/
theorem Front.rely (h : Front w next) (hinv : Inv w)
    (hcan : canTransition w.state.payment.status next = true) (hd : Plain opts.data)
    (hq : 2 ≤ w.state.payment.status.rank →
      opts.data.quoteJson = none ∧ opts.data.selectedRouteId = none) {j : ℕ} (hj : j ≠ i) :
    Rely j w (frontWorld i w next opts events) := by
  have hst := apply_status w.state.payment next opts hd.status
  have hne : (frontEntry i w next opts).tid ≠ j := fun h => hj h.symm
  refine ⟨evolves_transition hcan hd hq, List.suffix_cons _ _, inside_cons_ne hne,
    sentSettle_cons fun h => absurd h hne, recordedSettle_cons fun h => absurd h hne,
    fun hj' => ?_, fun hlease => ?_⟩
  · have ha : w.state.payment.status = .approved := by
      by_contra ha
      rw [h.nobody ha] at hj'
      cases hj'
    refine ⟨.inr ⟨ha, hst.trans (h.cancel ha), fun hr hcs => ?_⟩, rfl, rfl, fun _ _ => .rfl,
      (badRead_cons rfl).mp⟩
    have hfreed := hcs.2 (congrArg some (h.cancel ha))
    rw [hinv.trace.reserved.mpr hr] at hfreed
    cases hfreed
  · by_cases ha : w.state.payment.status = .approved
    · exact .inr (hst.trans (h.cancel ha))
    · rw [h.free ha] at hlease
      cases hlease

/-- A status change from outside: it keeps the invariant, and all that the attempt inside, if
there is one, may see of it is a cancel. -/
theorem keeps_outside (hinv : Inv w) (hs : w.state.payment.status ∈ cancellableStates)
    (hcan : canTransition w.state.payment.status next = true) (hn : next ∈ frontStates)
    (hd : Plain opts.data)
    (hq : 2 ≤ w.state.payment.status.rank →
      opts.data.quoteJson = none ∧ opts.data.selectedRouteId = none)
    (hdest : opts.data.destinationTxHash = none) (hcomp : opts.data.compensationTxHash = none)
    (hroutes : ∀ routes, opts.data.quoteJson = some routes →
      ∀ r ∈ routes, r.sourceNetwork = w.state.payment.sourceNetwork) :
    (sagaDiscipline env).Keeps i w (frontWorld i w next opts events) := by
  have hfront := front_of_inv hinv hs hcan hn
  have hst := apply_status w.state.payment next opts hd.status
  obtain ⟨hkinds, -⟩ := front_facts hs hcan hn
  obtain ⟨hsilent, hnstr, hnref, -⟩ := frontStates_apart hn
  have htruth : Truth (frontWorld i w next opts events).state :=
    hinv.truth.transition hd (grounds_silent hsilent (by simp [hkinds])
      hfront.credits hdest hcomp (fun h => absurd h hnref) hroutes)
  refine ⟨⟨hfront.lease events hinv hd, ⟨hinv.chain.counted, hinv.chain.home⟩, htruth,
    ⟨fun e he t hsend => ?_, hinv.trace.reserved,
      fun hstr => absurd hstr (by simpa only [frontWorld, hst] using hnstr),
      fun hb => absurd ((badRead_cons rfl).mp hb) hfront.unread⟩,
    rest_frontWorld events hinv hs hcan hn hd⟩,
    fun j hj => hfront.rely events hinv hcan hd hq hj⟩
  rcases List.mem_cons.mp he with rfl | hmem
  · cases hsend
  · exact hinv.trace.sent e hmem t hsend

end Front

/-- A request that has not claimed the lease knows what never changes. -/
def Visiting (i : ℕ) (p : Payment) (w : World env) : Prop :=
  Fresh i w.history ∧ identity w.state.payment = identity p

/-- What a visitor has read is stable. -/
theorem Visiting.stable : (sagaDiscipline env).Stable i fun w => Visiting i p w :=
  fun _ _ h _ hr => ⟨h.1.rely hr, (Rely.evolves hr).identity.trans h.2⟩

/-- A status change that fails, or misses, leaves a visitor as it was. -/
theorem Visiting.unmoved (h : Visiting i p w) (hinv : Inv w) (q : Payment) (next : PaymentStatus)
    (opts : TransitionOpts) (r : Except Err (Option Payment)) (hr : ∀ row, r ≠ .ok (some row)) :
    (sagaDiscipline env).Keeps i w
        ⟨w.state, ⟨i, .transition q.status next opts, r⟩ :: w.history⟩ ∧
      Visiting i p
        (⟨w.state, ⟨i, .transition q.status next opts, r⟩ :: w.history⟩ : World env) := by
  have hreads : Reads ⟨i, .transition q.status next opts, r⟩ := by
    rcases r with e | _ | row
    · exact ⟨rfl, rfl, rfl, rfl, rfl⟩
    · exact ⟨rfl, rfl, rfl, rfl, rfl⟩
    · exact absurd rfl (hr row)
  exact keeps_reads Visiting.stable hinv h (.refl _) hreads (badRead_cons rfl).mp

/-- A visitor that has moved the payment is a visitor still. -/
theorem Visiting.moved {next : PaymentStatus} (hn : next ∈ frontStates) (h : Visiting i p w)
    (opts : TransitionOpts) (events : List AuditRecord) :
    Visiting i p (frontWorld i w next opts events) := by
  refine ⟨⟨(inside_cons fun _ => ⟨rfl, rfl⟩).trans h.1.outside,
    (sentSettle_cons fun _ => rfl).trans h.1.unsent, ?_⟩, h.2⟩
  refine (recordedSettle_cons fun _ => ?_).trans h.1.unrecorded
  simp only [frontEntry, movesTo, ne_eq, Option.some.injEq]
  rintro rfl
  exact absurd hn (by decide)

/-- `transitionStatus`, by a request that has not claimed the lease. -/
theorem safe_visit {q : Payment} {next : PaymentStatus} {opts : TransitionOpts}
    (hn : next ∈ frontStates) (hs : next = .cancelled → q.status ∈ cancellableStates)
    (hd : Plain opts.data) (hq : next ∉ [PaymentStatus.quoted, .compliancePending] →
      opts.data.quoteJson = none ∧ opts.data.selectedRouteId = none)
    (hdest : opts.data.destinationTxHash = none) (hcomp : opts.data.compensationTxHash = none)
    (hroutes : ∀ routes, opts.data.quoteJson = some routes →
      ∀ r ∈ routes, r.sourceNetwork = p.sourceNetwork) (h : Visiting i p w) :
    (sagaDiscipline env).Safe i (fun row w => Visiting i p w ∧ row.status = next)
      (fun _ w => Visiting i p w) (transitionStatus q next opts) w := by
  unfold transitionStatus
  split
  · rename_i hcan
    obtain ⟨hs, hq⟩ := front_from hcan hn hs hq
    refine safe_bind (safe_mono (safe_call (P := fun w => Visiting i p w)
      (Q := fun r w => Visiting i p w ∧ ∀ row, r = some row → row.status = next)
      (X := fun _ w => Visiting i p w) Visiting.stable h ?_) ?_ fun _ _ hx => hx)
    · rintro w hinv hP c r w' he
      have hkeep := hP.unmoved hinv q next opts r
      rcases exec_cases he with ⟨m, rfl, rfl⟩ | ⟨s', hp, rfl⟩
      · obtain ⟨hk, hv⟩ := hkeep (by simp)
        exact ⟨hk, fun a ha => (by cases ha), fun _ _ => hv⟩
      · simp only [Stmt.perform, State.transition, Option.some.injEq, Prod.mk.injEq] at hp
        split at hp
        · rename_i hst
          obtain ⟨rfl, rfl⟩ := hp
          have hk := keeps_outside (i := i) (w.state.auditEvents ++
              [transitionRecord w.state.payment.id q.status next opts]) hinv
            (hst ▸ hs) (hst ▸ hcan) hn hd (hst ▸ hq) hdest hcomp
            (fun routes hr r hmem =>
              (hroutes routes hr r hmem).trans (identity_sourceNetwork hP.2).symm)
          have hv := hP.moved hn opts (w.state.auditEvents ++
            [transitionRecord w.state.payment.id q.status next opts])
          rw [frontWorld, frontEntry, hst] at hk hv
          refine ⟨hk, fun a ha => ?_, fun e he => by cases he⟩
          cases ha
          refine ⟨hv, fun row hrow => ?_⟩
          cases hrow
          exact apply_status _ _ _ hd.status
        · obtain ⟨rfl, rfl⟩ := hp
          obtain ⟨hk, hv⟩ := hkeep (by simp)
          refine ⟨hk, fun a ha => ?_, fun e he => by cases he⟩
          cases ha
          exact ⟨hv, fun row hrow => by cases hrow⟩
    · rintro (_ | row) w ⟨hv, hrow⟩
      · exact hv
      · exact ⟨hv, hrow row rfl⟩
  · exact h

/-! ## Quotes -/

section Figures

variable {P : World env → Prop} (hst : (sagaDiscipline env).Stable i P) (hw : P w)
include hst hw

/-- The liquidity a quote finds. -/
theorem liquidityCheck_safe (symbol : AssetSymbol) (network : Network) (needed : String) :
    (sagaDiscipline env).Safe i (fun _ w => P w) (fun _ w => P w)
      (liquidityCheck env symbol network needed) w := by
  unfold liquidityCheck
  split
  · refine safe_handle (safe_bind (safe_mono (availableLiquidity_safe hst hw _ _) ?_ ?_))
    · intro liq w hw
      refine safe_bind (safe_mono (safe_lift hw) ?_ ?_)
      · rintro needed w ⟨hw, -⟩
        split
        · exact hw
        · refine safe_bind (safe_mono (safe_parkedBalance hst hw _ _) ?_ ?_)
          · intro parked w hw
            split <;> exact hw
          · intro e w hw
            split <;> exact hw
      · rintro e w ⟨hw, -⟩
        split <;> exact hw
    · intro e w hw
      split <;> exact hw
  · exact hw

/-- The screening of a payment. -/
theorem runComplianceChecks_safe :
    (sagaDiscipline env).Safe i (fun _ w => P w) (fun _ w => P w)
      (runComplianceChecks env) w := by
  refine safe_bind (safe_mono (safe_findPayment hst hw) ?_ fun _ _ hx => hx.1)
  rintro _ w ⟨hw, -⟩
  refine safe_bind (safe_mono (safe_screen hst hw _ _) ?_ fun _ _ hx => hx)
  intro answers w hw
  refine safe_bind (safe_mono (safe_lift hw) ?_ fun _ _ hx => hx.1)
  rintro checks w ⟨hw, -⟩
  exact safe_bind (safe_mono (safe_createComplianceChecks hst hw _) (fun _ _ hq => hq)
    fun _ _ hx => hx.1)

end Figures

/-- Every route of a quote starts on the payment's own network. -/
theorem quoteRoutes_safe (h : Visiting i p w) :
    (sagaDiscipline env).Safe i
      (fun routes w => Visiting i p w ∧ ∀ r ∈ routes, r.sourceNetwork = p.sourceNetwork)
      (fun _ w => Visiting i p w) (quoteRoutes env) w := by
  have hlift : ∀ {α : Type} {x : Except Err α} {w : World env}, Visiting i p w →
      (sagaDiscipline env).Safe i (fun _ w => Visiting i p w) (fun _ w => Visiting i p w)
        (lift x) w := fun h => safe_mono (safe_lift (P := fun w => Visiting i p w) h)
          (fun _ _ hq => hq.1) fun _ _ hx => hx.1
  refine safe_bind (safe_mono (safe_findPayment Visiting.stable h) ?_ fun _ _ hx => hx.1)
  rintro q w ⟨h, rfl⟩
  have hsource := identity_sourceNetwork h.2
  refine safe_bind (safe_mono (hlift h) ?_ fun _ _ hx => hx)
  intro amountMinor w h
  refine safe_bind (safe_mono (hlift h) ?_ fun _ _ hx => hx)
  intro sourceAsset w h
  refine safe_bind (safe_mono (hlift h) ?_ fun _ _ hx => hx)
  intro destAsset w h
  refine safe_bind (safe_mono (hlift h) ?_ fun _ _ hx => hx)
  intro fx w h
  refine safe_bind (safe_mono (hlift h) ?_ fun _ _ hx => hx)
  intro platformFee w h
  dsimp only
  split
  · refine safe_bind (safe_mono (hlift h) ?_ fun _ _ hx => hx)
    intro destAmount w h
    refine safe_bind (safe_mono (liquidityCheck_safe Visiting.stable h _ _ _) ?_
      fun _ _ hx => hx)
    intro liq w h
    refine safe_bind (safe_mono (hlift h) ?_ fun _ _ hx => hx)
    intro _ w h
    exact ⟨h, by simp [singleNetworkRoutes, routeCommon, hsource]⟩
  · refine safe_bind (safe_mono (hlift h) ?_ fun _ _ hx => hx)
    intro _ w h
    refine safe_bind (safe_mono (hlift h) ?_ fun _ _ hx => hx)
    intro _ w h
    refine safe_bind (safe_mono (hlift h) ?_ fun _ _ hx => hx)
    intro bridgedUnits w h
    refine safe_bind (safe_mono (hlift h) ?_ fun _ _ hx => hx)
    intro bridgedDestAmount w h
    refine safe_bind (safe_mono (hlift h) ?_ fun _ _ hx => hx)
    intro fallbackDestAmount w h
    refine safe_bind (safe_mono (liquidityCheck_safe Visiting.stable h _ _ _) ?_
      fun _ _ hx => hx)
    intro bridgedLiq w h
    refine safe_bind (safe_mono (liquidityCheck_safe Visiting.stable h _ _ _) ?_
      fun _ _ hx => hx)
    intro fallbackLiq w h
    exact ⟨h, by simp [crossNetworkRoutes, routeCommon, hsource]⟩

/-! ## The requests -/

/-- A visitor has read the row as it is. -/
theorem visiting_self (h : Fresh i w.history) : Visiting i w.state.payment w := ⟨h, rfl⟩

/-- A visitor is outside. -/
theorem Visiting.outside (h : Visiting i p w) : inside i w.history = false := h.1.outside

/-- `POST quote`. -/
theorem quotePayment_safe {actor : String} (h : Fresh i w.history) :
    (sagaDiscipline env).Safe i (fun _ w => inside i w.history = false)
      (fun _ w => inside i w.history = false) (quotePayment env actor) w := by
  refine safe_bind (safe_mono (safe_findPayment stable_fresh h) ?_ fun _ _ hx => hx.1.outside)
  rintro p w ⟨h, rfl⟩
  refine safe_bind (safe_mono (quoteRoutes_safe (visiting_self h)) ?_
    fun _ _ hx => Visiting.outside hx)
  rintro routes w' ⟨h, hroutes⟩
  split
  · exact h.outside
  · exact safe_mono (safe_visit (by decide) (fun h => by cases h) ⟨rfl, rfl, rfl⟩
      (fun hn => absurd hn (by decide)) rfl rfl (fun _ hr => by cases hr; exact hroutes) h)
      (fun _ _ hq => hq.1.outside) fun _ _ hx => Visiting.outside hx

/-- `POST cancel`. -/
theorem cancelPayment_safe {actor : String} (h : Fresh i w.history) :
    (sagaDiscipline env).Safe i (fun _ w => inside i w.history = false)
      (fun _ w => inside i w.history = false) (cancelPayment actor) w := by
  refine safe_bind (safe_mono (safe_findPayment stable_fresh h) ?_ fun _ _ hx => hx.1.outside)
  rintro p w ⟨h, rfl⟩
  split
  · rename_i hs
    exact safe_mono (safe_visit (by decide) (fun _ => hs) ⟨rfl, rfl, rfl⟩ (fun _ => ⟨rfl, rfl⟩)
      rfl rfl (fun _ hr => by cases hr) (visiting_self h))
      (fun _ _ hq => hq.1.outside) fun _ _ hx => Visiting.outside hx
  · exact h.outside

/-- `POST review`. -/
theorem reviewPayment_safe {actor note : String} {approve : Bool} (h : Fresh i w.history) :
    (sagaDiscipline env).Safe i (fun _ w => inside i w.history = false)
      (fun _ w => inside i w.history = false) (reviewPayment actor approve note) w := by
  refine safe_bind (safe_mono (safe_findPayment stable_fresh h) ?_ fun _ _ hx => hx.1.outside)
  rintro p w ⟨h, rfl⟩
  split
  · refine safe_mono (safe_visit ?_ ?_ ⟨rfl, rfl, rfl⟩ (fun _ => ⟨rfl, rfl⟩) rfl rfl
      (fun _ hr => by cases hr) (visiting_self h))
      (fun _ _ hq => hq.1.outside) fun _ _ hx => Visiting.outside hx
    · cases approve <;> decide
    · cases approve <;> exact fun h => by cases h
  · exact h.outside

/-- The compliance gate. -/
theorem complianceGate_safe {actor : String} {q : Payment} {selection : PaymentPatch}
    (hd : Plain selection) (hq : selection.quoteJson = none)
    (hdest : selection.destinationTxHash = none) (hcomp : selection.compensationTxHash = none)
    (h : Visiting i p w) :
    (sagaDiscipline env).Safe i (fun _ w => Visiting i p w) (fun _ w => Visiting i p w)
      (complianceGate env actor q selection) w := by
  refine safe_bind (safe_mono (safe_visit (by decide) (fun h => by cases h) hd
    (fun hn => absurd hn (by decide)) hdest hcomp (fun _ hr => ?_) h) ?_ fun _ _ hx => hx)
  · rw [hq] at hr
    cases hr
  rintro row w ⟨h, -⟩
  refine safe_bind (safe_mono (runComplianceChecks_safe Visiting.stable h) ?_ fun _ _ hx => hx)
  intro overall w h
  cases overall <;>
    exact safe_mono (safe_visit (by decide) (fun h => by cases h) ⟨rfl, rfl, rfl⟩
      (fun _ => ⟨rfl, rfl⟩) rfl rfl (fun _ hr => by cases hr) h) (fun _ _ hq => hq.1)
      fun _ _ hx => hx

/-- What a route picked in the body writes. -/
theorem routeSelection_ok {routeId : Option String} {selection : PaymentPatch}
    (h : routeSelection p routeId = .ok selection) : Plain selection ∧
      selection.quoteJson = none ∧ selection.destinationTxHash = none ∧
        selection.compensationTxHash = none := by
  unfold routeSelection at h
  split at h
  · cases h
    exact ⟨⟨rfl, rfl, rfl⟩, rfl, rfl, rfl⟩
  · split at h
    · split at h <;> cases h
      exact ⟨⟨rfl, rfl, rfl⟩, rfl, rfl, rfl⟩
    · cases h
      exact ⟨⟨rfl, rfl, rfl⟩, rfl, rfl, rfl⟩

/-- The execution of a payment that is approved. -/
theorem executeApproved_safe (h : Fresh i w.history ∧ Usable w.state.payment) :
    (sagaDiscipline env).Safe i (fun _ w => inside i w.history = false)
      (fun _ w => inside i w.history = false) (executeApproved env i) w := by
  refine safe_handle (safe_mono (executePayment_safe h) (fun _ _ hq => hq) fun e w hx => ?_)
  exact safe_bind (safe_mono (safe_findPayment stable_outside hx) (fun _ _ hq => hq.1)
    fun _ _ hx => hx.1)

/-- `POST execute`. -/
theorem runExecute_safe {actor : String} {routeId : Option String} (h : Fresh i w.history) :
    (sagaDiscipline env).Safe i (fun _ w => inside i w.history = false)
      (fun _ w => inside i w.history = false) (runExecute env i actor routeId) w := by
  refine safe_bind (safe_mono (safe_findPayment stable_fresh h) ?_ fun _ _ hx => hx.1.outside)
  rintro p w ⟨h, rfl⟩
  refine safe_bind (safe_mono (safe_lift (P := fun w' => Visiting i w.state.payment w')
    (visiting_self h)) ?_ fun _ _ hx => hx.1.outside)
  rintro _ w' ⟨h, hu⟩
  have husable : Usable w.state.payment := by
    unfold usableAmount at hu
    split at hu
    · rename_i units hp
      exact ⟨units, hp⟩
    · cases hu
  have happroved : ∀ w' : World env, Visiting i w.state.payment w' →
      Fresh i w'.history ∧ Usable w'.state.payment := fun w' h => ⟨h.1, husable.congr h.2⟩
  refine safe_bind (safe_mono (safe_lift (P := fun w' => Visiting i w.state.payment w') h) ?_
    fun _ _ hx => hx.1.outside)
  rintro selection w' ⟨h, hsel⟩
  obtain ⟨hd, hq, hdest, hcomp⟩ := routeSelection_ok hsel
  split
  · refine safe_bind (safe_mono (complianceGate_safe hd hq hdest hcomp h) ?_
      fun _ _ hx => Visiting.outside hx)
    intro row w' h
    split
    · exact executeApproved_safe (happroved w' h)
    · exact h.outside
  · split
    · exact executeApproved_safe (happroved w' h)
    · exact h.outside

/-! ## The discipline of the service -/

/-- A payment that has just been created satisfies the invariant. -/
theorem inv_created (new : NewPayment) : Inv (⟨State.created new, []⟩ : World env) where
  lease := ⟨fun i j h => by simp [inside] at h, fun i h => by simp [inside] at h,
    fun h => absurd rfl h, fun h => by
      rcases h with ⟨i, h⟩ | h
      · simp [inside] at h
      · exact absurd rfl h⟩
  chain := ⟨fun n k hk => by
      clear hk
      cases k <;> rfl,
    fun tx ht => by simp [State.created] at ht⟩
  truth := by
    constructor <;> simp [Sent, State.created, NewPayment.row, releasedStates, reservedStates,
      compensationStates]
  trace := ⟨fun e he => by simp at he, by simp [reservedIn, Reserved, State.created],
    by simp [State.created, NewPayment.row, strandedStates], fun h => by cases h⟩
  rest _ _ := by
    refine ⟨?_, ?_, ?_, ?_⟩ <;> simp [State.created, NewPayment.row, Reserved]

/-- Mining is within everybody's rely and keeps the invariant. -/
theorem keeps_mining (hinv : Inv w) {m : Mining} {s : State} (hm : m.exec w.state = some s) :
    Inv ({ w with state := s } : World env) ∧
      ∀ j, Rely j w { w with state := s } := by
  obtain ⟨hp, hr, hc⟩ := mine_rows hm
  have hsent : ∀ k j, Sent s k j ↔ Sent w.state k j := fun k j => sent_mine hm
  have hev := evolves_mine hm
  refine ⟨⟨?_, hinv.chain.mine hm, hinv.truth.mine hm, ?_, fun hno hok => ?_⟩, fun j => ?_⟩
  · obtain ⟨ha, hh, hl, hy⟩ := hinv.lease
    constructor <;> simp only [hp]
    exacts [ha, hh, hl, hy]
  · obtain ⟨ht, hres, hst, hb⟩ := hinv.trace
    refine ⟨fun e he t hsend => ?_, ?_, ?_, ?_⟩
    · obtain ⟨tx, htx, hn, hcall⟩ := ht e he t hsend
      obtain ⟨tx', htx', hn', hcall', -⟩ := hev.txs _ tx htx
      exact ⟨tx', htx', hn'.trans hn, hcall'.trans hcall⟩
    · rw [hres, Reserved, Reserved, hr]
    · simp only [hp, hsent]
      exact hst
    · simp only [hp]
      exact hb
  · obtain ⟨hm, hst, hsp, hcons⟩ := hinv.rest hno hok
    refine ⟨?_, ?_, ?_, ?_⟩ <;> simp only [Reserved, hp, hr]
    exacts [hm, hst, hsp, hcons]
  · exact ⟨hev, List.suffix_refl _, rfl, rfl, rfl,
      fun _ => ⟨.inl hp, hr, hc, hsent, id⟩, fun hl => .inl (by simpa only [hp] using hl)⟩

/-- **The discipline holds of the service.** Every request of every kind keeps the invariant and
what the others rely on, and ends outside its leased section. -/
theorem saga_holds (new : NewPayment) : (sagaDiscipline env).Holds (State.created new)
    (fun _ i _ w => inside i w.history = false) (fun _ i _ w => inside i w.history = false) where
  inv := inv_created new
  start i := ⟨rfl, rfl, rfl⟩
  outside _ _ _ hinv hm := keeps_mining hinv hm
  ret_stable _ _ _ := stable_outside
  throw_stable _ _ _ := stable_outside
  program r i w _ hf := by
    cases r with
    | execute actor routeId =>
      exact safe_bind (safe_mono (runExecute_safe hf) (fun _ _ hq => hq) fun _ _ hx => hx)
    | cancel actor =>
      exact safe_bind (safe_mono (cancelPayment_safe hf) (fun _ _ hq => hq) fun _ _ hx => hx)
    | review actor approve note =>
      exact safe_bind (safe_mono (reviewPayment_safe hf) (fun _ _ hq => hq) fun _ _ hx => hx)
    | quote actor =>
      exact safe_bind (safe_mono (quotePayment_safe hf) (fun _ _ hq => hq) fun _ _ hx => hx)
    | repair =>
      exact safe_bind (safe_mono (repairCompensation_safe hf) (fun _ _ hq => hq) fun _ _ hx => hx)
    | reconcile =>
      exact safe_bind (safe_mono (reconcileUnresolvedPayment_safe hf) (fun _ _ hq => hq)
        fun _ _ hx => hx)

end SettlementOS.Analysis
