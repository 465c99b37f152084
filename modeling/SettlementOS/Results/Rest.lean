import SettlementOS.Analysis.Confinement
import SettlementOS.Results.Lease

/-!
# Where a payment comes to rest

When no execution, repair or reconcile is in flight, nobody is inside a leased section, and a
payment that no database failure has hit is where an attempt may leave it (`RestAt`). Two
things can go wrong on the way there. An escrow that is read before a `settlePayment` that is
out is mined, or not read at all, is taken for one that is still held: the payment ends
`FAILED` although its escrow was released. And a cancel between the reservation and the move
to `LIQUIDITY_RESERVED` leaves the reservation behind.
-/

set_option autoImplicit false

namespace SettlementOS.Results

open SettlementOS.Computation Model Program Analysis Discipline

variable {env : Env} {new : NewPayment}

/-! ## Nobody in flight -/

/-- No execution, repair or reconcile is in flight. -/
def AtRest (c : Config env) : Prop :=
  ∀ t ∈ c.threads, t.request.isAttempt = true → t.ended = true

instance (c : Config env) : Decidable (AtRest c) :=
  inferInstanceAs (Decidable (∀ t ∈ c.threads, _))

/-- Whoever has performed quiet statements only is not inside. -/
theorem outside_of_quiet {i : ℕ} {h : History}
    (hc : ∀ e ∈ h, e.tid = i → Quiet e.stmt) : inside i h = false := by
  induction h with
  | nil => rfl
  | cons e h ih =>
    have ih := ih fun e' he' => hc e' (List.mem_cons_of_mem _ he')
    unfold inside
    split
    · rename_i hcl
      obtain ⟨tid, o, r⟩ := e
      have hno := hc _ List.mem_cons_self hcl.1
      cases o <;> first | exact absurd hno id | simp [claims] at hcl
    · split
      · rfl
      · exact ih

/-- At rest, nobody is inside. -/
theorem nobody_inside_at_rest {c : Config env} (h : Reachable env new c) (hrest : AtRest c)
    (i : ℕ) : inside i c.world.history = false := by
  by_cases hi : c.threads.length ≤ i
  · exact (h.kept.start i hi).outside
  · obtain ⟨t, ht⟩ : ∃ t, c.threads[i]? = some t := by
      rw [Nat.not_le] at hi
      exact ⟨c.threads[i], List.getElem?_eq_getElem hi⟩
    by_cases ha : t.request.isAttempt = true
    · have hended := hrest t (List.mem_of_getElem? ht) ha
      have hsafe := h.kept.safe i t ht
      obtain ⟨r, rest⟩ := t
      cases rest with
      | ret a => exact hsafe
      | throw e => exact hsafe
      | perform o k => cases hended
    · refine outside_of_quiet ((Service.Config.Reaches.confined
        (A := fun r : Request => r.isAttempt = false) uses_request h).rest i t ht
        (by simpa using ha)).2

/-- At rest, a payment that no database failure has hit is where an attempt may leave it. -/
theorem restAt {c : Config env} (h : Reachable env new c) (hrest : AtRest c)
    (hok : DbOk c.world.history) : RestAt env c.world.state c.world.history :=
  h.inv.rest (nobody_inside_at_rest h hrest) hok

/-! ## Released escrows -/

/-- The statuses at which a payment whose escrow was released is completed, or can be. -/
def repairableStates : List PaymentStatus :=
  [.settled, .payoutPending, .compensationPending, .compensated]

/-- A failed payment's escrow was not released, and at rest a payment whose escrow was released is
completed or can be. -/
def NothingStranded (c : Config env) : Prop :=
  (c.world.state.payment.status = .failed →
    c.world.state.escrow c.world.state.payment.sourceNetwork ≠ .settled) ∧
  (AtRest c → c.world.state.escrow c.world.state.payment.sourceNetwork = .settled →
    c.world.state.payment.status ∈ repairableStates)

/-- An escrow that was released was released by a `settlePayment` that was sent. -/
theorem settle_sent {w : World env} (hinv : Inv w)
    (he : w.state.escrow w.state.payment.sourceNetwork = .settled) :
    ∃ j, Sent w.state .settle j :=
  hinv.chain.sent (k := .settle) (by decide) (by rw [he]; rfl)

/-- **Released escrows.** As long as no attempt that has sent `settlePayment` without recording it
reads the escrow otherwise than as `SETTLED`, nothing is stranded; and a payment at rest whose
escrow was released is stranded as soon as one does. -/
theorem nothing_stranded {c : Config env} (h : Reachable env new c)
    (hok : DbOk c.world.history) :
    (¬ BadRead c.world.history → NothingStranded c) ∧
      (AtRest c → c.world.state.escrow c.world.state.payment.sourceNetwork = .settled →
        NothingStranded c → ¬ BadRead c.world.history) := by
  refine ⟨fun hb => ⟨fun hs he => ?_, fun hrest he => ?_⟩, fun hrest he hn hb => ?_⟩
  · obtain ⟨j, hj⟩ := settle_sent h.inv he
    exact hb (h.inv.trace.stranded (by rw [hs]; decide) j hj)
  · obtain ⟨j, hj⟩ := settle_sent h.inv he
    have hkind := h.inv.truth.kinds _ _ hj
    have hmoving := (restAt h hrest hok).moving
    have hstr : c.world.state.payment.status ∉ strandedStates :=
      fun hs => hb (h.inv.trace.stranded hs j hj)
    revert hkind hmoving hstr
    generalize c.world.state.payment.status = s
    cases s <;> decide
  · have hmoving := (restAt h hrest hok).moving
    rcases h.inv.trace.badRead hb with hs | hs
    · rw [hs] at hmoving
      exact hmoving (by decide)
    · simp only [strandedStates, List.mem_cons, List.not_mem_nil, or_false] at hs
      rcases hs with hs | hs
      · exact hn.1 hs he
      · rw [h.inv.truth.refundedEnd hs] at he
        cases he

instance (h : History) : Decidable (DbOk h) :=
  inferInstanceAs (Decidable (∀ e ∈ h, dbFails e = false))

instance : (h : History) → Decidable (BadRead h)
  | [] => isFalse id
  | e :: h =>
    have : Decidable (BadRead h) := instDecidableBadRead h
    inferInstanceAs (Decidable (_ ∨ ∃ r, escrowRead e = some r ∧ r ≠ some .settled ∧
      sentSettle e.tid h = true ∧ recordedSettle e.tid h = false))

/-- The sample payment, completed. -/
theorem nothing_stranded_completed : ∃ c : Config sampleEnv,
    Reachable sampleEnv samplePayment c ∧ c.world.state.escrow "alpha" = .settled ∧
    NothingStranded c := by
  obtain ⟨c, hc, hP⟩ := reached sampleEnv samplePayment completedRun
    (P := fun c => decide (DbOk c.world.history) && !decide (BadRead c.world.history) &&
      c.world.state.escrow "alpha" == .settled)
    (by decide +kernel)
  simp only [Bool.and_eq_true, Bool.not_eq_true', decide_eq_true_eq, decide_eq_false_iff_not,
    beq_iff_eq] at hP
  exact ⟨c, hc, hP.2, (nothing_stranded hc hP.1.1).1 hP.1.2⟩

/-- The receipt of `settlePayment` is lost, and the escrow cannot be read. -/
def strandedRun : List (Move sampleEnv) :=
  quotedRun ++ .start (.execute "ops" none) :: steps 1 14 ++ mine 0 :: steps 1 3 ++
    mine 1 :: steps 1 4 ++ failure 1 :: mine 2 :: steps 1 2 ++ failure 1 :: steps 1 1 ++
    mine 3 :: steps 1 4

/-- The sample payment, failed with its escrow released. -/
theorem stranded : ∃ c : Config sampleEnv, Reachable sampleEnv samplePayment c ∧
    DbOk c.world.history ∧ c.world.state.payment.status = .failed ∧
    c.world.state.escrow "alpha" = .settled ∧ ¬ NothingStranded c := by
  obtain ⟨c, hc, hP⟩ := reached sampleEnv samplePayment strandedRun
    (P := fun c => decide (DbOk c.world.history) && c.world.state.payment.status == .failed &&
      c.world.state.payment.sourceNetwork == "alpha" && c.world.state.escrow "alpha" == .settled)
    (by decide +kernel)
  simp only [Bool.and_eq_true, decide_eq_true_eq, beq_iff_eq] at hP
  obtain ⟨⟨⟨hok, hs⟩, hn⟩, he⟩ := hP
  exact ⟨c, hc, hok, hs, he, fun h => h.1 hs (by rw [hn, he])⟩

/-! ## Reservations -/

/-- What a reservation at rest says. -/
structure Accounted (s : State) : Prop where
  pending : Reserved s → s.payment.status = .payoutPending
  consumed : s.payment.status = .settled → s.reservation.map (·.status) = some .consumed
  freed : s.payment.status ∈ [PaymentStatus.failed, .refunded, .compensationPending, .compensated,
    .cancelled, .rejected] → ¬ Reserved s

/-- **Reservations at rest.** In a run in which no cancel is committed while the reservation is
`RESERVED`, of a payment whose source token is deployed, nothing is held back for a payment at
rest that is not waiting for its payout. -/
theorem reservation_accounted {c : Config env} (h : Reachable env new c) (hrest : AtRest c)
    (hok : DbOk c.world.history) (hspares : CancelSpares c.world.history)
    (htoken : sourceToken env c.world.state.payment ≠ none) : Accounted c.world.state := by
  have hat := restAt h hrest hok
  have hpending : Reserved c.world.state → c.world.state.payment.status = .payoutPending :=
    fun hr => (hat.spared hspares hr).resolve_right fun hs => htoken (hat.stuck hs)
  refine ⟨hpending, hat.consumed, fun hs hr => ?_⟩
  rw [hpending hr] at hs
  exact absurd hs (by decide)

instance : (h : History) → Decidable (CancelSpares h)
  | [] => isTrue trivial
  | e :: h =>
    have : Decidable (CancelSpares h) := instDecidableCancelSpares h
    inferInstanceAs (Decidable (_ ∧ (movesTo e = some .cancelled → reservedIn h = false)))

/-- The sample payment, completed: its reservation is consumed. -/
theorem reservation_accounted_completed : ∃ c : Config sampleEnv,
    Reachable sampleEnv samplePayment c ∧ c.world.state.payment.status = .settled ∧
    Accounted c.world.state := by
  obtain ⟨c, hc, hP⟩ := reached sampleEnv samplePayment completedRun
    (P := fun c => decide (AtRest c) && decide (DbOk c.world.history) &&
      decide (CancelSpares c.world.history) &&
      (sourceToken sampleEnv c.world.state.payment).isSome &&
      c.world.state.payment.status == .settled)
    (by decide +kernel)
  simp only [Bool.and_eq_true, decide_eq_true_eq, beq_iff_eq] at hP
  obtain ⟨⟨⟨⟨hrest, hok⟩, hspares⟩, htoken⟩, hs⟩ := hP
  exact ⟨c, hc, hs, reservation_accounted hc hrest hok hspares
    (Option.isSome_iff_ne_none.mp htoken)⟩

/-- The payment is cancelled between its reservation and the move to `LIQUIDITY_RESERVED`. -/
def leakedRun : List (Move sampleEnv) :=
  quotedRun ++ .start (.execute "ops" none) :: steps 1 11 ++ .start (.cancel "ops") :: steps 2 2 ++
    steps 1 3

/-- The sample payment, cancelled and at rest with its reservation `RESERVED`. -/
theorem reservation_leaked : ∃ c : Config sampleEnv, Reachable sampleEnv samplePayment c ∧
    AtRest c ∧ DbOk c.world.history ∧ c.world.state.payment.status = .cancelled ∧
    ¬ Accounted c.world.state := by
  obtain ⟨c, hc, hP⟩ := reached sampleEnv samplePayment leakedRun
    (P := fun c => decide (AtRest c) && decide (DbOk c.world.history) &&
      c.world.state.payment.status == .cancelled &&
      c.world.state.reservation.map (·.status) == some .reserved)
    (by decide +kernel)
  simp only [Bool.and_eq_true, decide_eq_true_eq, beq_iff_eq] at hP
  obtain ⟨⟨⟨hrest, hok⟩, hs⟩, hr⟩ := hP
  refine ⟨c, hc, hrest, hok, hs, fun h => h.freed ?_ hr⟩
  rw [hs]
  decide

end SettlementOS.Results
