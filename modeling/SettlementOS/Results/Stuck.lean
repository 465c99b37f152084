import SettlementOS.Analysis.Reserving
import SettlementOS.Program.StuckPayments
import SettlementOS.Results.Rest

/-!
# Which stranded payments the operator sees

A payment whose sender's funds have left, whose recipient was not credited and whose sender was
not made whole is owed something. Wherever its attempts stopped, it is on the operator's list
unless its row stands at one of the four statuses an attempt passes through between its
reservation and its payout: the list does not ask for those.
-/

set_option autoImplicit false

namespace SettlementOS.Results

open SettlementOS.Computation Service Model Program Analysis

variable {env : Env} {new : NewPayment}

/-- The sender's funds have left. -/
def FundsLeft (s : State) : Prop :=
  s.escrow s.payment.sourceNetwork = .initiated ∨ s.escrow s.payment.sourceNetwork = .settled

/-- The sender's funds have left, nobody was credited, and the sender was not made whole. -/
structure Owed (s : State) : Prop where
  left : FundsLeft s
  uncredited : s.ledgerCredits = []
  notWhole : ¬ MadeWhole s

/-- The payment's row, and no other with its id, is in the table. -/
structure InTable (s : State) (rows : List PaymentRow) : Prop where
  row : (s.payment, s.reservation) ∈ rows
  unique : ∀ r ∈ rows, r.1.id = s.payment.id → r = (s.payment, s.reservation)

/-- The payment is on the list. -/
def ListedIn (s : State) (stuck : List StuckPayment) : Prop :=
  ∃ r ∈ stuck, r.payment.id = s.payment.id

/-- The statuses between the reservation and the payout. -/
def midwayStates : List PaymentStatus :=
  [.liquidityReserved, .submittedOnchain, .confirmedOnchain, .fxOrSwapCompleted]

/-- The payment is on the list when its row is a candidate that holds funds. -/
theorem listedIn_iff {s : State} {rows : List PaymentRow} (h : InTable s rows)
    (escrowState : Payment → Option OnchainPaymentState) :
    ListedIn s (stuckPayments rows escrowState) ↔
      stuckCandidate (s.payment, s.reservation) = true ∧
        StuckPayment.holdsFunds ⟨s.payment, escrowState s.payment⟩ = true := by
  unfold ListedIn stuckPayments
  constructor
  · rintro ⟨r, hr, hid⟩
    obtain ⟨hmem, hfunds⟩ := List.mem_filter.mp hr
    obtain ⟨row, hrow, rfl⟩ := List.mem_map.mp hmem
    obtain ⟨hin, hcandidate⟩ := List.mem_filter.mp hrow
    obtain rfl := h.unique row hin hid
    exact ⟨hcandidate, hfunds⟩
  · rintro ⟨hcandidate, hfunds⟩
    exact ⟨_, List.mem_filter.mpr ⟨List.mem_map.mpr
      ⟨_, List.mem_filter.mpr ⟨h.row, hcandidate⟩, rfl⟩, hfunds⟩, rfl⟩

/-- Where a payment that is owed something can stand. -/
theorem status_of_owed {w : World env} (hinv : Inv w) (howed : Owed w.state) :
    w.state.payment.status ∈
      .failed :: .payoutPending :: .compensationPending :: midwayStates := by
  have htouched : CallKind.initiate ∈ broadcastable w.state.payment.status := by
    by_contra hk
    have hnone := (untouched_of_truth hinv hk).1 w.state.payment.sourceNetwork
    rcases howed.left with h | h <;> rw [hnone] at h <;> cases h
  have hsettled : w.state.payment.status ≠ .settled :=
    fun hs => (hinv.truth.settledEnd hs).1 howed.uncredited
  have hcompensated : w.state.payment.status ≠ .compensated := by
    intro hs
    obtain ⟨h, hhash, hmined⟩ := hinv.truth.compensatedEnd hs
    exact howed.notWhole (.inr ⟨h, hinv.truth.compensationHash h hhash, hmined⟩)
  have hrefunded : w.state.payment.status ≠ .refunded := by
    intro hs
    have hback := hinv.truth.refundedEnd hs
    rcases howed.left with h | h <;> rw [hback] at h <;> cases h
  revert htouched hsettled hcompensated hrefunded
  generalize w.state.payment.status = s
  cases s <;> decide

/-- **Stuck payments.** Wherever the attempts on a payment have stopped, one that is owed
something is listed unless its row stands at one of the four statuses in between. -/
theorem stuck_listed {c : Config env} (h : Reachable env new c) (howed : Owed c.world.state)
    {rows : List PaymentRow} (hrows : InTable c.world.state rows)
    {escrowState : Payment → Option OnchainPaymentState}
    (hread : escrowState c.world.state.payment =
      some (c.world.state.escrow c.world.state.payment.sourceNetwork)) :
    ListedIn c.world.state (stuckPayments rows escrowState) ↔
      c.world.state.payment.status ∉ midwayStates := by
  have hreserved : c.world.state.reservation ≠ none := by
    apply reservation_of_initiated h h.inv.chain
    rcases howed.left with hleft | hleft <;> rw [hleft] <;> decide
  have hfunds : StuckPayment.holdsFunds
      ⟨c.world.state.payment, escrowState c.world.state.payment⟩ = true := by
    rw [hread]
    rcases howed.left with hleft | hleft <;> simp [StuckPayment.holdsFunds, hleft]
  rw [listedIn_iff hrows, and_iff_left hfunds]
  have hstatus := status_of_owed h.inv howed
  have hsome : c.world.state.reservation.isSome = true := Option.isSome_iff_ne_none.mpr hreserved
  revert hstatus
  unfold stuckCandidate
  rw [hsome]
  generalize c.world.state.payment.status = s
  cases s <;> decide

/-- Only an attempt that died, or a database that failed, leaves a payment off the list. -/
theorem stuck_listed_at_rest {c : Config env} (h : Reachable env new c) (hrest : AtRest c)
    (hok : DbOk c.world.history) (htoken : sourceToken env c.world.state.payment ≠ none)
    (howed : Owed c.world.state) {rows : List PaymentRow} (hrows : InTable c.world.state rows)
    {escrowState : Payment → Option OnchainPaymentState}
    (hread : escrowState c.world.state.payment =
      some (c.world.state.escrow c.world.state.payment.sourceNetwork)) :
    ListedIn c.world.state (stuckPayments rows escrowState) := by
  have hat := restAt h hrest hok
  refine (stuck_listed h howed hrows hread).mpr fun hmidway => ?_
  have hmoving := hat.moving
  have hstuck := hat.stuck
  revert hmidway hmoving hstuck
  generalize c.world.state.payment.status = s
  cases s <;> simp [midwayStates, htoken]

/-! ## Off the list -/

/-- No attempt runs any more: each has ended, or has died with its process. -/
def Stopped (died : ℕ → Bool) (c : Config env) : Prop :=
  ∀ (i : ℕ) t, c.threads[i]? = some t → t.request.isAttempt = true →
    t.ended = true ∨ died i = true

/-- The escrow is initiated, its receipt is lost, and the refund fails. -/
def failedRun : List (Move sampleEnv) :=
  quotedRun ++ .start (.execute "ops" none) :: steps 1 14 ++ mine 0 :: steps 1 3 ++
    failure 1 :: mine 1 :: steps 1 3 ++ failure 1 :: steps 1 3

/-- The process dies once the escrow is initiated, before the receipt is read. -/
def diedRun : List (Move sampleEnv) :=
  quotedRun ++ .start (.execute "ops" none) :: steps 1 14 ++ mine 0 :: steps 1 3 ++ [mine 1]

/-- The status, and whether the sender's funds are in the escrow with nothing else having
happened. -/
def heldAt (status : PaymentStatus) (c : Config sampleEnv) : Bool :=
  c.world.state.payment.status == status && c.world.state.payment.sourceNetwork == "alpha" &&
    c.world.state.escrow "alpha" == .initiated && c.world.state.ledgerCredits.isEmpty

/-- A payment whose funds are in the escrow is owed something. -/
theorem owed_of_held {new : NewPayment} {status : PaymentStatus} {c : Config sampleEnv}
    (h : Reachable sampleEnv new c) (hheld : heldAt status c = true)
    (hk : CallKind.compensation ∉ broadcastable status) :
    c.world.state.payment.status = status ∧ Owed c.world.state := by
  simp only [heldAt, Bool.and_eq_true, beq_iff_eq, List.isEmpty_iff] at hheld
  obtain ⟨⟨⟨hs, hn⟩, he⟩, hcredit⟩ := hheld
  refine ⟨hs, .inl (hn ▸ he), hcredit, ?_⟩
  rintro (⟨n, hrefunded⟩ | ⟨hash, hsent, -⟩)
  · have hhome := escrow_home h.inv.chain (n := n) (by rw [hrefunded]; decide)
    rw [hhome, hn, he] at hrefunded
    cases hrefunded
  · exact hk (hs ▸ h.inv.truth.kinds _ _ hsent)

/-- The sample payment, failed with its escrow held, is listed. -/
theorem stuck_listed_failed : ∃ c : Config sampleEnv, Reachable sampleEnv samplePayment c ∧
    c.world.state.payment.status = .failed ∧
    ListedIn c.world.state (stuckPayments [(c.world.state.payment, c.world.state.reservation)]
      fun p => some (c.world.state.escrow p.sourceNetwork)) := by
  obtain ⟨c, hc, hP⟩ := reached sampleEnv samplePayment failedRun (P := heldAt .failed)
    (by decide +kernel)
  obtain ⟨hs, howed⟩ := owed_of_held hc hP (by decide)
  refine ⟨c, hc, hs, (stuck_listed hc howed ⟨List.mem_singleton_self _, ?_⟩ rfl).mpr ?_⟩
  · intro r hr _
    exact List.mem_singleton.mp hr
  · rw [hs]
    decide

/-- The sample payment, its process dead and its escrow held, is not listed. -/
theorem stuck_unlisted : ¬ ∀ (env : Env) (new : NewPayment) (c : Config env) (died : ℕ → Bool)
    (rows : List PaymentRow) (escrowState : Payment → Option OnchainPaymentState),
    Reachable env new c → Stopped died c → Owed c.world.state → InTable c.world.state rows →
    escrowState c.world.state.payment =
      some (c.world.state.escrow c.world.state.payment.sourceNetwork) →
    ListedIn c.world.state (stuckPayments rows escrowState) := by
  intro hall
  obtain ⟨c, hc, hP⟩ := reached sampleEnv samplePayment diedRun (P := heldAt .liquidityReserved)
    (by decide +kernel)
  obtain ⟨hs, howed⟩ := owed_of_held hc hP (by decide)
  have hlisted := hall sampleEnv samplePayment c (fun _ => true)
    [(c.world.state.payment, c.world.state.reservation)]
    (fun p => some (c.world.state.escrow p.sourceNetwork)) hc (fun _ _ _ _ => .inr rfl) howed
    ⟨List.mem_singleton_self _, fun r hr _ => List.mem_singleton.mp hr⟩ rfl
  obtain ⟨hcandidate, -⟩ := (listedIn_iff
    ⟨List.mem_singleton_self _, fun r hr _ => List.mem_singleton.mp hr⟩ _).mp hlisted
  simp [stuckCandidate, hs] at hcandidate

end SettlementOS.Results
