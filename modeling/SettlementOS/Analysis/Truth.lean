import SettlementOS.Analysis.Evolution

/-!
# What a status says about the money

`Truth` is the invariant behind the results about one payment: for each status, which
transactions may have been sent, where the escrow is, who has been paid. It is kept by
every write of the program, provided a status change has its *grounds* (`Grounds`): the
facts an attempt has established before it asks for the change.
-/

set_option autoImplicit false

namespace SettlementOS.Analysis

open SettlementOS.Computation Model Program

/-- The route the row names leads to another network. -/
def CrossChain (p : Payment) : Prop :=
  ∃ route, selectedRoute p = .ok route ∧ route.sourceNetwork ≠ route.destinationNetwork

/-- Which kinds of transaction may have been sent by the time the status is reached. -/
def broadcastable : PaymentStatus → List CallKind
  | .liquidityReserved => [.approve, .initiate, .refund]
  | .submittedOnchain => [.approve, .initiate, .refund]
  | .confirmedOnchain => [.approve, .initiate, .settle, .refund]
  | .fxOrSwapCompleted => [.approve, .initiate, .settle, .refund]
  | .failed => [.approve, .initiate, .settle, .refund]
  | .refunded => [.approve, .initiate, .settle, .refund]
  | .payoutPending => [.approve, .initiate, .settle, .refund, .payout]
  | .settled => [.approve, .initiate, .settle, .refund, .payout]
  | .compensationPending => [.approve, .initiate, .settle, .refund, .payout, .compensation]
  | .compensated => [.approve, .initiate, .settle, .refund, .payout, .compensation]
  | _ => []

/-- The statuses only a released escrow leads to. -/
def releasedStates : List PaymentStatus :=
  [.fxOrSwapCompleted, .payoutPending, .settled, .compensationPending, .compensated]

/-- The statuses of an attempt that has reserved and not ended. -/
def reservedStates : List PaymentStatus :=
  [.liquidityReserved, .submittedOnchain, .confirmedOnchain, .fxOrSwapCompleted, .payoutPending]

/-- The statuses in which the sender is being made whole. -/
def compensationStates : List PaymentStatus := [.compensationPending, .compensated]

/-- The payment's rows and its chains agree, as far as the status says. -/
structure Truth (s : State) : Prop where
  kinds : ∀ k h, Sent s k h → k ∈ broadcastable s.payment.status
  credit : s.ledgerCredits ≠ [] →
    s.payment.status = .payoutPending ∨ s.payment.status = .settled
  oneCredit : s.ledgerCredits.length ≤ 1
  released : s.payment.status ∈ releasedStates → s.escrow s.payment.sourceNetwork = .settled
  onePayout : ∀ h h', Sent s .payout h → Sent s .payout h' → h = h'
  payoutHash : ∀ h, s.payment.destinationTxHash = some h → Sent s .payout h
  noPayout : s.payment.status ∈ compensationStates → ∀ h, Sent s .payout h → Mined s h false
  paid : s.ledgerCredits ≠ [] → ∀ h, Sent s .payout h → Mined s h true
  bridged : s.ledgerCredits ≠ [] → CrossChain s.payment → ∃ h, Sent s .payout h
  compensationHash : ∀ h, s.payment.compensationTxHash = some h → Sent s .compensation h
  settledEnd : s.payment.status = .settled → s.ledgerCredits ≠ [] ∧
    (CrossChain s.payment → ∃ h, s.payment.destinationTxHash = some h)
  compensatedEnd : s.payment.status = .compensated →
    ∃ h, s.payment.compensationTxHash = some h ∧ Mined s h true
  refundedEnd : s.payment.status = .refunded → s.escrow s.payment.sourceNetwork = .refunded
  reserved : s.payment.status ∈ reservedStates → s.reservation ≠ none
  routes : ∀ routes, s.payment.quoteJson = some routes →
    ∀ r ∈ routes, r.sourceNetwork = s.payment.sourceNetwork

/-- The columns `Truth` reads off the row. -/
structure SameView (p p' : Payment) : Prop where
  status : p'.status = p.status
  sourceNetwork : p'.sourceNetwork = p.sourceNetwork
  destinationTxHash : p'.destinationTxHash = p.destinationTxHash
  compensationTxHash : p'.compensationTxHash = p.compensationTxHash
  quote : quoteOf p' = quoteOf p

/-- The selected route depends on the quote's columns only. -/
theorem selectedRoute_congr {p p' : Payment} (h : quoteOf p' = quoteOf p) :
    selectedRoute p' = selectedRoute p := by
  simp only [quoteOf, Prod.mk.injEq] at h
  simp only [selectedRoute, h.1, h.2]

/-- Whether a payment crosses chains is a matter of its quote. -/
theorem crossChain_congr {p p' : Payment} (h : quoteOf p' = quoteOf p) :
    CrossChain p' ↔ CrossChain p := by
  simp only [CrossChain, selectedRoute_congr h]

namespace Truth

variable {s s' : State}

/-- Writes to other columns, and to the events and the screening results. -/
theorem congr (h : Truth s) (hv : SameView s.payment s'.payment)
    (hr : s'.reservation.isSome = s.reservation.isSome)
    (hc : s'.ledgerCredits = s.ledgerCredits) (ht : s'.txs = s.txs) (he : s'.escrow = s.escrow) :
    Truth s' := by
  have hsent : ∀ k i, Sent s' k i ↔ Sent s k i := by simp [Sent, ht]
  have hmined : ∀ i b, Mined s' i b ↔ Mined s i b := by simp [Mined, ht]
  have hq : s'.payment.quoteJson = s.payment.quoteJson := (Prod.mk.injEq .. ▸ hv.quote).1
  have hx := crossChain_congr hv.quote
  have hres : s'.reservation ≠ none ↔ s.reservation ≠ none := by
    rw [← Option.isSome_iff_ne_none, ← Option.isSome_iff_ne_none, hr]
  constructor <;>
    simp only [hsent, hmined, hv.status, hv.sourceNetwork, hv.destinationTxHash,
      hv.compensationTxHash, hq, hx, hc, he, hres]
  exacts [h.kinds, h.credit, h.oneCredit, h.released, h.onePayout, h.payoutHash, h.noPayout,
    h.paid, h.bridged, h.compensationHash, h.settledEnd, h.compensatedEnd, h.refundedEnd,
    h.reserved, h.routes]

/-- Mining. -/
theorem mine (h : Truth s) {m : Mining} (hm : m.exec s = some s') : Truth s' := by
  have hev := evolves_mine hm
  have hsent : ∀ k i, Sent s' k i ↔ Sent s k i := fun k i => sent_mine hm
  obtain ⟨hp, hr, hc⟩ := mine_rows hm
  have hfinal : ∀ e, e ≠ .none → e ≠ .initiated → s.escrow s.payment.sourceNetwork = e →
      s'.escrow s.payment.sourceNetwork = e := by
    intro e hn hi he
    rw [(hev.escrow _).final (he ▸ hn) (he ▸ hi), he]
  constructor <;> simp only [hsent, hp, hc, hr]
  · exact h.kinds
  · exact h.credit
  · exact h.oneCredit
  · exact fun hs => hfinal .settled (by decide) (by decide) (h.released hs)
  · exact h.onePayout
  · exact h.payoutHash
  · exact fun hs i hi => hev.mined (h.noPayout hs i hi)
  · exact fun hcr i hi => hev.mined (h.paid hcr i hi)
  · exact h.bridged
  · exact h.compensationHash
  · exact h.settledEnd
  · intro hs
    obtain ⟨i, hi, hmi⟩ := h.compensatedEnd hs
    exact ⟨i, hi, hev.mined hmi⟩
  · exact fun hs => hfinal .refunded (by decide) (by decide) (h.refundedEnd hs)
  · exact h.reserved
  · exact h.routes

/-- Sending a transaction the status admits. A payout is the first, and is sent before the
ledger is credited and before any compensation. -/
theorem send (h : Truth s) {network : Network} {c : Call}
    (hk : c.kind ∈ broadcastable s.payment.status)
    (hp : c.kind = .payout → (∀ i, ¬ Sent s .payout i) ∧ s.ledgerCredits = [] ∧
      s.payment.status ∉ compensationStates) : Truth (send s network c) where
  kinds k i hs := by
    rcases sent_send.mp hs with hs | ⟨-, rfl⟩
    · exact h.kinds k i hs
    · exact hk
  credit := h.credit
  oneCredit := h.oneCredit
  released := h.released
  onePayout i j hi hj := by
    rcases sent_send.mp hi with hi | ⟨hil, hik⟩ <;>
      rcases sent_send.mp hj with hj | ⟨hjl, hjk⟩
    · exact h.onePayout i j hi hj
    · exact absurd hi ((hp hjk).1 i)
    · exact absurd hj ((hp hik).1 j)
    · exact hil.trans hjl.symm
  payoutHash i hi := sent_send.mpr (.inl (h.payoutHash i hi))
  noPayout hs i hi := by
    rcases sent_send.mp hi with hi | ⟨-, hi⟩
    · exact (evolves_send s network c).mined (h.noPayout hs i hi)
    · exact absurd hs (hp hi).2.2
  paid hc i hi := by
    rcases sent_send.mp hi with hi | ⟨-, hi⟩
    · exact (evolves_send s network c).mined (h.paid hc i hi)
    · exact absurd (hp hi).2.1 hc
  bridged hc hx := by
    obtain ⟨i, hi⟩ := h.bridged hc hx
    exact ⟨i, sent_send.mpr (.inl hi)⟩
  compensationHash i hi := sent_send.mpr (.inl (h.compensationHash i hi))
  settledEnd := h.settledEnd
  compensatedEnd hs := by
    obtain ⟨i, hi, hm⟩ := h.compensatedEnd hs
    exact ⟨i, hi, (evolves_send s network c).mined hm⟩
  refundedEnd := h.refundedEnd
  reserved := h.reserved
  routes := h.routes

/-- Persisting the hash of a payout that was sent. -/
theorem persistPayout (h : Truth s) {hash : ℕ} (hs : Sent s .payout hash) :
    Truth { s with payment := s.payment.apply { destinationTxHash := some hash } } where
  kinds := h.kinds
  credit := h.credit
  oneCredit := h.oneCredit
  released := h.released
  onePayout := h.onePayout
  payoutHash i hi := by
    simp only [Payment.apply, Option.some_or, Option.some.injEq, Option.orElse_eq_orElse,
      Option.orElse_eq_or] at hi
    exact hi ▸ hs
  noPayout := h.noPayout
  paid := h.paid
  bridged := h.bridged
  compensationHash := h.compensationHash
  settledEnd hst := ⟨(h.settledEnd hst).1, fun _ => ⟨hash, rfl⟩⟩
  compensatedEnd := h.compensatedEnd
  refundedEnd := h.refundedEnd
  reserved := h.reserved
  routes := h.routes

/-- Persisting the hash of a compensation that was sent, before the payment is over. -/
theorem persistCompensation (h : Truth s) {hash : ℕ} (hs : Sent s .compensation hash)
    (hst : s.payment.status ≠ .compensated) :
    Truth { s with payment := s.payment.apply { compensationTxHash := some hash } } where
  kinds := h.kinds
  credit := h.credit
  oneCredit := h.oneCredit
  released := h.released
  onePayout := h.onePayout
  payoutHash := h.payoutHash
  noPayout := h.noPayout
  paid := h.paid
  bridged := h.bridged
  compensationHash i hi := by
    simp only [Payment.apply, Option.some_or, Option.some.injEq, Option.orElse_eq_orElse,
      Option.orElse_eq_or] at hi
    exact hi ▸ hs
  settledEnd := h.settledEnd
  compensatedEnd he := absurd he hst
  refundedEnd := h.refundedEnd
  reserved := h.reserved
  routes := h.routes

/-- Crediting the ledger of a recipient whose payout, if the route has one, has landed. -/
theorem creditLedger (h : Truth s) {credit : LedgerCredit}
    (hst : s.payment.status = .payoutPending) (hpaid : ∀ i, Sent s .payout i → Mined s i true)
    (hbridged : CrossChain s.payment → ∃ i, Sent s .payout i) :
    Truth { s with ledgerCredits := [credit] } where
  kinds := h.kinds
  credit _ := .inl hst
  oneCredit := Nat.le_refl 1
  released := h.released
  onePayout := h.onePayout
  payoutHash := h.payoutHash
  noPayout := h.noPayout
  paid _ := hpaid
  bridged _ := hbridged
  compensationHash := h.compensationHash
  settledEnd he := by simp [hst] at he
  compensatedEnd := h.compensatedEnd
  refundedEnd := h.refundedEnd
  reserved := h.reserved
  routes := h.routes

/-- Writing a reservation, and columns `Truth` does not read. -/
theorem reserve (h : Truth s) {r : LiquidityReservation} {row : Payment}
    (hv : SameView s.payment row) :
    Truth { s with payment := row, reservation := some r } := by
  have hrow : Truth { s with payment := row } := h.congr hv rfl rfl rfl rfl
  exact { hrow with reserved := fun _ => by simp }

end Truth

/-! ## Status changes -/

/-- What a status change needs for the new status to tell the truth. -/
structure Grounds (s : State) (next : PaymentStatus) (data : PaymentPatch) : Prop where
  kinds : ∀ k ∈ broadcastable s.payment.status, k ∈ broadcastable next
  credit : s.ledgerCredits ≠ [] → next = .settled
  released : next ∈ releasedStates → s.escrow s.payment.sourceNetwork = .settled
  payoutHash : ∀ h, data.destinationTxHash = some h → Sent s .payout h
  noPayout : next ∈ compensationStates → ∀ h, Sent s .payout h → Mined s h false
  compensationHash : ∀ h, data.compensationTxHash = some h → Sent s .compensation h
  settledEnd : next = .settled → s.ledgerCredits ≠ [] ∧ (CrossChain s.payment →
    ∃ h, (data.destinationTxHash <|> s.payment.destinationTxHash) = some h)
  compensatedEnd : next = .compensated →
    ∃ h, data.compensationTxHash = some h ∧ Mined s h true
  refundedEnd : next = .refunded → s.escrow s.payment.sourceNetwork = .refunded
  reserved : next ∈ reservedStates → s.reservation ≠ none
  quote : s.ledgerCredits ≠ [] → data.quoteJson = none ∧ data.selectedRouteId = none
  routes : ∀ routes, data.quoteJson = some routes →
    ∀ r ∈ routes, r.sourceNetwork = s.payment.sourceNetwork

/-- A patch that leaves the status and the lease to `transitionStatus`. -/
structure Plain (data : PaymentPatch) : Prop where
  status : data.status = none
  lease : data.executionLeaseId = none
  leasedAt : data.leasedAt = none

/-- The statuses that say nothing of a payout or a reservation, nor of an escrow that was
released. -/
def silentStates : List PaymentStatus :=
  [.draft, .quoted, .compliancePending, .manualReview, .approved, .rejected, .failed, .cancelled,
    .refunded, .expired]

/-- The grounds of a status that says nothing of the recipient: nobody was paid. -/
theorem grounds_silent {s : State} {next : PaymentStatus} {data : PaymentPatch}
    (hn : next ∈ silentStates) (hk : ∀ k ∈ broadcastable s.payment.status, k ∈ broadcastable next)
    (hc : s.ledgerCredits = []) (hdest : data.destinationTxHash = none)
    (hcomp : data.compensationTxHash = none)
    (hrefunded : next = .refunded → s.escrow s.payment.sourceNetwork = .refunded)
    (hroutes : ∀ routes, data.quoteJson = some routes →
      ∀ r ∈ routes, r.sourceNetwork = s.payment.sourceNetwork) : Grounds s next data := by
  have hapart : next ∉ releasedStates ∧ next ∉ compensationStates ∧ next ≠ .settled ∧
      next ≠ .compensated ∧ next ∉ reservedStates := by
    revert hn
    cases next <;> decide
  obtain ⟨hrel, hcs, hs, hcd, hres⟩ := hapart
  exact ⟨hk, fun h => absurd hc h, fun h => absurd h hrel, by simp [hdest], fun h => absurd h hcs,
    by simp [hcomp], fun h => absurd h hs, fun h => absurd h hcd, hrefunded,
    fun h => absurd h hres, fun h => absurd hc h, hroutes⟩

section Apply

variable (p : Payment) (next : PaymentStatus) (opts : TransitionOpts)

/-- The row after a status change, column by column. -/
@[simp] theorem apply_status (h : opts.data.status = none) :
    (p.apply (transitionData next opts)).status = next := by
  by_cases hr : next ∈ leaseReleaseStates <;>
    simp [Payment.apply, transitionData, releaseLease, PaymentPatch.spread, hr, h]

/-- A patch leaves the identity alone. -/
@[simp] theorem apply_identity (data : PaymentPatch) :
    identity (p.apply data) = identity p := rfl

/-- A patch writes the payout's hash, or leaves it. -/
@[simp] theorem apply_destinationTxHash :
    (p.apply (transitionData next opts)).destinationTxHash =
      (opts.data.destinationTxHash <|> p.destinationTxHash) := by
  by_cases hr : next ∈ leaseReleaseStates <;>
    simp [Payment.apply, transitionData, releaseLease, PaymentPatch.spread, hr]

/-- A patch writes the compensation's hash, or leaves it. -/
@[simp] theorem apply_compensationTxHash :
    (p.apply (transitionData next opts)).compensationTxHash =
      (opts.data.compensationTxHash <|> p.compensationTxHash) := by
  by_cases hr : next ∈ leaseReleaseStates <;>
    simp [Payment.apply, transitionData, releaseLease, PaymentPatch.spread, hr]

/-- A patch writes the quote, or leaves it. -/
@[simp] theorem apply_quoteJson :
    (p.apply (transitionData next opts)).quoteJson =
      (opts.data.quoteJson <|> p.quoteJson) := by
  by_cases hr : next ∈ leaseReleaseStates <;>
    simp [Payment.apply, transitionData, releaseLease, PaymentPatch.spread, hr]

/-- A patch writes the selected route, or leaves it. -/
@[simp] theorem apply_selectedRouteId :
    (p.apply (transitionData next opts)).selectedRouteId =
      (opts.data.selectedRouteId <|> p.selectedRouteId) := by
  by_cases hr : next ∈ leaseReleaseStates <;>
    simp [Payment.apply, transitionData, releaseLease, PaymentPatch.spread, hr]

/-- A status change releases the lease at the statuses at which an attempt is over, and
leaves it alone elsewhere. -/
@[simp] theorem apply_executionLeaseId (h : opts.data.executionLeaseId = none) :
    (p.apply (transitionData next opts)).executionLeaseId =
      if next ∈ leaseReleaseStates then none else p.executionLeaseId := by
  by_cases hr : next ∈ leaseReleaseStates <;>
    simp [Payment.apply, transitionData, releaseLease, PaymentPatch.spread, hr, h]

/-- A patch that writes no quote leaves the quote. -/
theorem apply_quoteOf (hq : opts.data.quoteJson = none) (hr : opts.data.selectedRouteId = none) :
    quoteOf (p.apply (transitionData next opts)) = quoteOf p := by
  simp [quoteOf, hq, hr]

end Apply

/-- **Status changes.** A change that has its grounds keeps the truth. -/
theorem Truth.transition {s : State} (h : Truth s) {next : PaymentStatus}
    {opts : TransitionOpts} (hd : Plain opts.data) (hg : Grounds s next opts.data)
    {events : List AuditRecord} :
    Truth { s with
      payment := s.payment.apply (transitionData next opts)
      auditEvents := events } := by
  have hx : s.ledgerCredits ≠ [] →
      (CrossChain (s.payment.apply (transitionData next opts)) ↔ CrossChain s.payment) :=
    fun hc => crossChain_congr (apply_quoteOf _ _ _ (hg.quote hc).1 (hg.quote hc).2)
  have hst := apply_status s.payment next opts hd.status
  refine ⟨fun k i hs => ?_, fun hc => ?_, h.oneCredit, fun hn => ?_, h.onePayout, fun i hi => ?_,
    fun hn => ?_, h.paid, fun hc hcr => h.bridged hc ((hx hc).mp hcr), fun i hi => ?_,
    fun hn => ?_, fun hn => ?_, fun hn => ?_, fun hn => ?_, fun routes hq => ?_⟩
  · exact hst.symm ▸ hg.kinds k (h.kinds k i hs)
  · exact .inr (hst.trans (hg.credit hc))
  · exact hg.released (hst ▸ hn)
  · rcases hdst : opts.data.destinationTxHash with _ | j
    · exact h.payoutHash i (by simpa [hdst] using hi)
    · exact hg.payoutHash i (by simpa [hdst] using hi)
  · exact hg.noPayout (hst ▸ hn)
  · rcases hcmp : opts.data.compensationTxHash with _ | j
    · exact h.compensationHash i (by simpa [hcmp] using hi)
    · exact hg.compensationHash i (by simpa [hcmp] using hi)
  · obtain ⟨hc, hd⟩ := hg.settledEnd (hst ▸ hn)
    exact ⟨hc, fun hcr => by simpa using hd ((hx hc).mp hcr)⟩
  · obtain ⟨i, hi, hm⟩ := hg.compensatedEnd (hst ▸ hn)
    exact ⟨i, by simp [hi], hm⟩
  · exact hg.refundedEnd (hst ▸ hn)
  · exact hg.reserved (hst ▸ hn)
  · rcases hqj : opts.data.quoteJson with _ | q
    · exact h.routes routes (by simpa [hqj] using hq)
    · exact hg.routes routes (by simpa [hqj] using hq)

end SettlementOS.Analysis
