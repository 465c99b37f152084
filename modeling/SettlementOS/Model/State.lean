import Mathlib.Data.List.Basic

/-!
# The payment lifecycle (`lib/state.ts`)

The statuses of a payment, which status may follow which, and the three lists of statuses
the rest of the program consults: where a user may still cancel, where a payment is
finished, and where an execution attempt is over and its lease is given back.
-/

set_option autoImplicit false

namespace SettlementOS.Model

/-- `PAYMENT_STATES`. -/
inductive PaymentStatus where
  | draft
  | quoted
  | compliancePending
  | manualReview
  | approved
  | liquidityReserved
  | submittedOnchain
  | confirmedOnchain
  | fxOrSwapCompleted
  | payoutPending
  | settled
  | compensationPending
  | compensated
  | rejected
  | failed
  | cancelled
  | refunded
  | expired
  deriving DecidableEq, Repr

namespace PaymentStatus

/-- The string the status column holds. -/
def name : PaymentStatus → String
  | .draft => "DRAFT"
  | .quoted => "QUOTED"
  | .compliancePending => "COMPLIANCE_PENDING"
  | .manualReview => "MANUAL_REVIEW"
  | .approved => "APPROVED"
  | .liquidityReserved => "LIQUIDITY_RESERVED"
  | .submittedOnchain => "SUBMITTED_ONCHAIN"
  | .confirmedOnchain => "CONFIRMED_ONCHAIN"
  | .fxOrSwapCompleted => "FX_OR_SWAP_COMPLETED"
  | .payoutPending => "PAYOUT_PENDING"
  | .settled => "SETTLED"
  | .compensationPending => "COMPENSATION_PENDING"
  | .compensated => "COMPENSATED"
  | .rejected => "REJECTED"
  | .failed => "FAILED"
  | .cancelled => "CANCELLED"
  | .refunded => "REFUNDED"
  | .expired => "EXPIRED"

/-- `to.toLowerCase()`, as the default audit action spells it. -/
def lowerName : PaymentStatus → String
  | .draft => "draft"
  | .quoted => "quoted"
  | .compliancePending => "compliance_pending"
  | .manualReview => "manual_review"
  | .approved => "approved"
  | .liquidityReserved => "liquidity_reserved"
  | .submittedOnchain => "submitted_onchain"
  | .confirmedOnchain => "confirmed_onchain"
  | .fxOrSwapCompleted => "fx_or_swap_completed"
  | .payoutPending => "payout_pending"
  | .settled => "settled"
  | .compensationPending => "compensation_pending"
  | .compensated => "compensated"
  | .rejected => "rejected"
  | .failed => "failed"
  | .cancelled => "cancelled"
  | .refunded => "refunded"
  | .expired => "expired"

end PaymentStatus

/-- `TRANSITIONS`. -/
def transitions : PaymentStatus → List PaymentStatus
  | .draft => [.quoted, .cancelled, .expired]
  | .quoted => [.compliancePending, .quoted, .cancelled, .expired]
  | .compliancePending => [.approved, .manualReview, .rejected, .cancelled]
  | .manualReview => [.approved, .rejected, .cancelled]
  | .approved => [.liquidityReserved, .cancelled, .failed]
  | .liquidityReserved => [.submittedOnchain, .failed, .cancelled]
  | .submittedOnchain => [.confirmedOnchain, .failed]
  | .confirmedOnchain => [.fxOrSwapCompleted, .failed, .refunded, .compensationPending]
  | .fxOrSwapCompleted => [.payoutPending, .failed, .refunded, .compensationPending]
  | .payoutPending => [.settled, .failed, .refunded, .compensationPending]
  | .settled => []
  | .compensationPending => [.compensated]
  | .compensated => []
  | .rejected => []
  | .failed => [.refunded]
  | .cancelled => []
  | .refunded => []
  | .expired => []

/-- `canTransition`. -/
def canTransition (s next : PaymentStatus) : Bool := (transitions s).contains next

/-- `CANCELLABLE_STATES`. -/
def cancellableStates : List PaymentStatus :=
  [.draft, .quoted, .compliancePending, .manualReview, .approved]

/-- `TERMINAL_STATES`. -/
def terminalStates : List PaymentStatus :=
  [.settled, .compensated, .rejected, .cancelled, .refunded, .expired]

/-- `LEASE_RELEASE_STATES`. -/
def leaseReleaseStates : List PaymentStatus := terminalStates ++ [.failed]

namespace PaymentStatus

/-- How far along a status is. -/
def rank : PaymentStatus → ℕ
  | .draft => 0
  | .quoted => 1
  | .compliancePending => 2
  | .manualReview => 3
  | .approved => 4
  | .liquidityReserved => 5
  | .submittedOnchain => 6
  | .confirmedOnchain => 7
  | .fxOrSwapCompleted => 8
  | .payoutPending => 9
  | .compensationPending => 10
  | .failed => 10
  | .settled => 11
  | .compensated => 11
  | .rejected => 11
  | .cancelled => 11
  | .refunded => 11
  | .expired => 11

/-- The lifecycle may lead from `s` to `s'`, in any number of steps. -/
def Leads (s s' : PaymentStatus) : Prop := s' = s ∨ (s.rank < s'.rank ∧ s ∉ terminalStates)

/-- A status leads to itself. -/
theorem Leads.refl (s : PaymentStatus) : s.Leads s := .inl rfl

/-- What leads to what leads on leads on. -/
theorem Leads.trans {s s' s'' : PaymentStatus} (h : s.Leads s') (h' : s'.Leads s'') :
    s.Leads s'' := by
  rcases h with rfl | ⟨hlt, hs⟩
  · exact h'
  · rcases h' with rfl | ⟨hlt', -⟩
    · exact .inr ⟨hlt, hs⟩
    · exact .inr ⟨Nat.lt_trans hlt hlt', hs⟩

/-- No status leads to one of a lower rank. -/
theorem Leads.rank_le {s s' : PaymentStatus} (h : s.Leads s') : s.rank ≤ s'.rank := by
  rcases h with rfl | ⟨hlt, -⟩
  · exact Nat.le_refl _
  · exact Nat.le_of_lt hlt

/-- A terminal status is never left. -/
theorem Leads.terminal {s s' : PaymentStatus} (h : s.Leads s') (hs : s ∈ terminalStates) :
    s' = s := by
  rcases h with rfl | ⟨-, hn⟩
  · rfl
  · exact absurd hs hn

end PaymentStatus

/-- Every legal transition leads along the lifecycle. -/
theorem leads_of_canTransition {s next : PaymentStatus} (h : canTransition s next = true) :
    s.Leads next := by
  have hall : ∀ next ∈ transitions s, s.Leads next := by
    unfold PaymentStatus.Leads
    cases s <;> decide
  exact hall next (by simpa [canTransition] using h)

/-- No status follows a terminal one. -/
theorem transitions_terminal {s : PaymentStatus} (h : s ∈ terminalStates) :
    transitions s = [] := by
  cases s <;> first | rfl | simp [terminalStates] at h

/-- Nothing leaves a terminal status. -/
theorem canTransition_terminal {s next : PaymentStatus} (h : s ∈ terminalStates) :
    canTransition s next = false := by
  simp [canTransition, transitions_terminal h]

/-- Among the statuses at which an attempt is over, only `FAILED` has a successor, and that
one is terminal. -/
theorem canTransition_release {s next : PaymentStatus} (h : s ∈ leaseReleaseStates)
    (ht : canTransition s next = true) : s = .failed ∧ next = .refunded := by
  rw [leaseReleaseStates, List.mem_append, List.mem_singleton] at h
  rcases h with h | rfl
  · rw [canTransition_terminal h] at ht
    cases ht
  · exact ⟨rfl, by simpa [canTransition, transitions] using ht⟩

end SettlementOS.Model
