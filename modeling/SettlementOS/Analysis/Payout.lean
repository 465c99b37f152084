import SettlementOS.Analysis.Compensation

/-!
# Completing a payout

`Running i p w` is what an attempt knows from the reservation to the payout: its copy of the
row is true, the copy knows of every payout that was sent, and the escrow has not been
misread. From `PAYOUT_PENDING` a payment is completed forward only when its recipient was
paid for certain (`Payable`).
-/

set_option autoImplicit false

namespace SettlementOS.Analysis

open SettlementOS.Computation Model Program Discipline

variable {env : Env} {i : ℕ} {p : Payment} {w w' : World env}

/-- Attempt `i` is inside, between the reservation and the end of the payout. -/
structure Running (i : ℕ) (p : Payment) (w : World env) : Prop extends Holding i p w where
  payouts : ∀ h, Sent w.state .payout h → p.destinationTxHash = some h
  settles : p.status = .confirmedOnchain → ∀ h, Sent w.state .settle h →
    sentSettle i w.history = true
  recorded : sentSettle i w.history = true →
    p.status = .confirmedOnchain ∨ recordedSettle i w.history = true
  unrecorded : p.status.rank ≤ 7 → recordedSettle i w.history = false
  unread : ¬ BadRead w.history
  booked : w.state.reservation ≠ none

/-- The recipient of the payment was paid, as far as the chain's part of it goes: every payout
sent has landed, and a route across networks has one. -/
def Payable (p : Payment) (s : State) : Prop :=
  (∀ j, Sent s .payout j → Mined s j true) ∧
    (CrossChain p → ∃ h, p.destinationTxHash = some h)

namespace Running

/-- A running attempt runs on, where nothing is disturbed. -/
theorem undisturbed (h : Running i p w) (hu : Undisturbed i w w')
    (hb : w'.state.reservation ≠ none) : Running i p w' where
  toHolding := h.toHolding.undisturbed hu
  payouts j hj := h.payouts j ((hu.sent _ _).mp hj)
  settles hs j hj := hu.sentSettle.trans (h.settles hs j ((hu.sent _ _).mp hj))
  recorded hs := by
    rw [hu.sentSettle] at hs
    rw [hu.recorded]
    exact h.recorded hs
  unrecorded hs := hu.recorded.trans (h.unrecorded hs)
  unread hb := h.unread (hu.badRead hb)
  booked := hb

/-- It runs on, whatever the others do. -/
theorem frame (h : Running i p w) (hf : Frame i w w') : Running i p w' :=
  h.undisturbed hf.toUndisturbed (by rw [hf.reservation]; exact h.booked)

/-- With anything else a frame keeps, that is stable. -/
theorem stable {F : World env → Prop} (hF : ∀ w w', Frame i w w' → F w → F w') :
    (sagaDiscipline env).Stable i fun w => Running i p w ∧ F w :=
  stable_of_frame (fun _ h => ⟨h.1.inside, h.1.not_approved⟩)
    fun w w' hf h => ⟨h.1.frame hf, hF w w' hf h.2⟩

/-- By itself it is stable. -/
theorem stable' : (sagaDiscipline env).Stable i fun w => Running i p w :=
  stable_of_frame (fun _ h => ⟨h.inside, h.not_approved⟩) fun _ _ hf h => h.frame hf

/-- A payment may be left at `PAYOUT_PENDING`, reserved or not. -/
theorem leaves (h : Running i p w) (hs : p.status = .payoutPending) : Leaves i w where
  inside := h.inside
  rest hok := by
    have hst : w.state.payment.status = .payoutPending := h.status.trans hs
    refine ⟨?_, ?_, fun _ _ => .inl hst, ?_⟩ <;> simp [hst]

end Running

/-- A row that is payable is so still, where nothing is disturbed. -/
theorem Payable.frame (h : Payable p w.state) (hf : Undisturbed i w w') :
    Payable p w'.state :=
  ⟨fun j hj => hf.evolves.mined (h.1 j ((hf.sent _ _).mp hj)), h.2⟩

/-- A payout that has landed makes the payment payable. -/
theorem payable_of_mined (h : Running i p w) {hash : ℕ} (hhash : p.destinationTxHash = some hash)
    (hm : Mined w.state hash true) : Payable p w.state := by
  refine ⟨fun j hj => ?_, fun _ => ⟨hash, hhash⟩⟩
  have := h.payouts j hj
  rw [hhash, Option.some.injEq] at this
  exact this ▸ hm

/-- A ledger credit makes the payment payable. -/
theorem payable_of_credit (h : Running i p w) (ht : Truth w.state)
    (hc : w.state.ledgerCredits ≠ []) : Payable p w.state := by
  refine ⟨ht.paid hc, fun hx => ?_⟩
  obtain ⟨j, hj⟩ := ht.bridged hc ((crossChain_congr h.quote).mpr hx)
  exact ⟨j, h.payouts j hj⟩

/-- Crediting a recipient that may be credited. -/
theorem creditRecipient_safe {destAmount : String} {F : World env → Prop}
    (hF : ∀ w w', Undisturbed i w w' → F w → F w') (hs : p.status = .payoutPending)
    (h : Running i p w ∧ Payable p w.state ∧ w.state.ledgerCredits = [] ∧ F w) :
    (sagaDiscipline env).Safe i
      (fun _ w => Running i p w ∧ Payable p w.state ∧ w.state.ledgerCredits ≠ [] ∧ F w)
      (fun _ w => Running i p w ∧ ¬ DbOk w.history) (creditRecipient p destAmount) w := by
  have hstable : ∀ b : Prop, (sagaDiscipline env).Stable i fun w => Running i p w ∧
      Payable p w.state ∧ (w.state.ledgerCredits = [] ↔ b) ∧ F w := fun b =>
    Running.stable fun w w' hf hP => ⟨hP.1.frame hf.toUndisturbed, by rw [hf.credits]; exact hP.2.1,
      hF w w' hf.toUndisturbed hP.2.2⟩
  refine safe_bind (safe_mono (safe_createLedgerCredit (hstable True)
    ⟨h.1, h.2.1, iff_true_intro h.2.2.1, h.2.2.2⟩ (fun _ hP => hP.1.inside) ?_) ?_ ?_)
  · intro w hinv hP
    refine ⟨hP.1.status.trans hs, hP.2.1.1, fun hx => ?_⟩
    obtain ⟨j, hj⟩ := hP.2.1.2 ((crossChain_congr hP.1.quote).mp hx)
    exact ⟨j, hP.1.payoutHash j hj⟩
  · rintro _ w' ⟨-, w, hP, hc, rfl⟩
    have hu := undisturbed_write (i := i) (w := w) (e := ⟨i, .createLedgerCredit
        ⟨p.recipientId, p.destinationCurrency, destAmount⟩, .ok ()⟩)
      (s := { w.state with ledgerCredits :=
        [⟨p.recipientId, p.destinationCurrency, destAmount⟩] })
      rfl ⟨.refl _, rfl, fun _ => rfl, .refl _, fun _ => .inl rfl, fun hne => absurd hc hne⟩
      rfl rfl rfl rfl rfl rfl
    refine safe_mono (safe_audit (hstable False) ⟨hP.1.undisturbed hu hP.1.booked,
      hP.2.1.frame hu, by simp, hF _ _ hu hP.2.2.2⟩ _ _ _) ?_ ?_
    · rintro _ w ⟨hr, hp, hc, hf⟩
      exact ⟨hr, hp, hc.mp, hf⟩
    · exact fun _ w hx => ⟨hx.1.1, hx.2⟩
  · rintro e w ⟨hP, hx⟩
    exact ⟨hP.1, hx.resolve_right fun hne => hne (hP.2.2.1.mpr trivial)⟩

/-- Crediting at most once. -/
theorem creditOnce_safe {destAmount : String} (hs : p.status = .payoutPending)
    (h : Running i p w ∧ Payable p w.state) :
    (sagaDiscipline env).Safe i
      (fun _ w => Running i p w ∧ Payable p w.state ∧ w.state.ledgerCredits ≠ [])
      (fun _ w => Running i p w ∧ ¬ DbOk w.history) (creditOnce p destAmount) w := by
  refine safe_bind (safe_mono (safe_findLedgerCredit
    (Running.stable (F := fun w => Payable p w.state) fun w w' hf hP =>
      hP.frame hf.toUndisturbed) h) ?_ fun _ _ hx => ⟨hx.1.1, hx.2⟩)
  rintro existing w ⟨⟨hr, hp⟩, hc⟩
  cases existing with
  | some _ =>
    refine ⟨hr, hp, fun hne => ?_⟩
    simp [hne] at hc
  | none =>
    exact safe_mono (creditRecipient_safe (F := fun _ => True) (fun _ _ _ h => h) hs
      ⟨hr, hp, List.head?_eq_none_iff.mp hc, trivial⟩)
      (fun _ _ hq => ⟨hq.1, hq.2.1, hq.2.2.1⟩) fun _ _ hx => hx

/-- The grounds of `SETTLED`: the ledger is credited, and the row or the patch carries the hash
of the payout, if the route has one. -/
theorem grounds_settled {s : State} (ht : Truth s) {data : PaymentPatch}
    (hst : s.payment.status = .payoutPending) (hc : s.ledgerCredits ≠ [])
    (hq : data.quoteJson = none ∧ data.selectedRouteId = none)
    (hcomp : data.compensationTxHash = none)
    (hhash : ∀ h, data.destinationTxHash = some h → Sent s .payout h)
    (hx : CrossChain s.payment →
      ∃ h, (data.destinationTxHash <|> s.payment.destinationTxHash) = some h) :
    Grounds s .settled data where
  kinds := by simp [hst, broadcastable]
  credit _ := rfl
  released _ := ht.released (by simp [hst, releasedStates])
  payoutHash := hhash
  noPayout h := by simp [compensationStates] at h
  compensationHash j hj := by simp [hcomp] at hj
  settledEnd _ := ⟨hc, hx⟩
  compensatedEnd h := by cases h
  refundedEnd h := by cases h
  reserved h := by simp [reservedStates] at h
  quote _ := hq
  routes routes h := by simp [hq] at h

/-- Marking the payment `SETTLED` once its reservation is consumed. -/
theorem markSettled_safe {data : PaymentPatch} (hs : p.status = .payoutPending)
    (hd : Plain data) (hq : data.quoteJson = none ∧ data.selectedRouteId = none)
    (hcomp : data.compensationTxHash = none)
    (hhash : ∀ h, data.destinationTxHash = some h → p.destinationTxHash = some h)
    (h : Running i p w ∧ w.state.ledgerCredits ≠ [] ∧
      (CrossChain p →
        ∃ h, (data.destinationTxHash <|> w.state.payment.destinationTxHash) = some h) ∧
      (DbOk w.history → w.state.reservation.map (·.status) = some .consumed)) :
    (sagaDiscipline env).Safe i (fun _ w => Leaves i w)
      (fun _ w => Running i p w ∧ ¬ DbOk w.history) (setStatus p .settled data []) w := by
  refine safe_mono (safe_transitionStatus
    (P := fun w => Running i p w ∧ w.state.ledgerCredits ≠ [] ∧
      (CrossChain p →
        ∃ h, (data.destinationTxHash <|> w.state.payment.destinationTxHash) = some h) ∧
      (DbOk w.history → w.state.reservation.map (·.status) = some .consumed))
    (Running.stable fun w w' hf hF => ?_) h ?_ hd hq (fun _ hP => hP.1.inside) ?_) ?_ ?_
  · rw [hf.credits, hf.payment, hf.reservation]
    exact ⟨hF.1, hF.2.1, fun hok => hF.2.2 (hok.of_suffix hf.history)⟩
  · simp [hs, canTransition, transitions]
  · intro w hinv hP hst
    have hpay : w.state.payment.status = .payoutPending := hst.trans hs
    refine ⟨grounds_settled hinv.truth hpay hP.2.1 hq hcomp
      (fun j hj => hP.1.payoutHash j (hhash j hj)) fun hx => hP.2.2.1
        ((crossChain_congr hP.1.quote).mp hx), ?_, fun hb => absurd hb hP.1.unread⟩
    simp [strandedStates]
  · rintro row w' ⟨w₀, hm⟩
    have hst := hm.row_status hd
    have hcons : DbOk w'.history → w'.state.reservation.map (·.status) = some .consumed := by
      intro hok
      rw [hm.state]
      exact hm.before.2.2.2 (hm.dbOk hok)
    refine ⟨(hm.inside_eq i).trans hm.before.1.inside, fun hok => ?_⟩
    refine ⟨?_, ?_, fun _ hr => ?_, fun _ => hcons hok⟩
    · simp [hm.row_eq, hst]
    · simp [hm.row_eq, hst]
    · rw [Reserved, hcons hok] at hr
      cases hr
  · exact fun _ w hx => ⟨hx.1.1, hx.2 hx.1.1.status⟩

/-- Writing the reservation's status: it is there to be written. -/
theorem writeReservation_safe {F : World env → Prop} {status : ReservationStatus}
    (hF : ∀ w w', Undisturbed i w w' → w'.state.ledgerCredits = w.state.ledgerCredits →
      F w → F w') (h : Running i p w ∧ F w) :
    (sagaDiscipline env).Safe i
      (fun _ w => (Running i p w ∧ F w) ∧ w.state.reservation.map (·.status) = some status)
      (fun _ w => (Running i p w ∧ F w) ∧ ¬ DbOk w.history)
      (call (.updateReservation status)) w := by
  refine safe_mono (safe_updateReservation (Running.stable fun w w' hf hP =>
    hF w w' hf.toUndisturbed hf.credits hP) h (fun _ hP => hP.1.inside) _) ?_ ?_
  · rintro _ w' ⟨-, w, r, hP, hr, rfl⟩
    have hu := undisturbed_write (i := i) (w := w) (e := ⟨i, .updateReservation status, .ok ()⟩)
      (s := { w.state with reservation := some { r with status := status } }) rfl
      ⟨.refl _, rfl, fun _ => rfl, .refl _, fun _ => .inl rfl, fun _ => rfl⟩ rfl rfl rfl rfl rfl rfl
    exact ⟨⟨hP.1.undisturbed hu (by simp), hF _ _ hu rfl hP.2⟩, rfl⟩
  · rintro e w ⟨hP, hx⟩
    exact ⟨hP, hx.resolve_right hP.1.booked⟩

/-- Writing the reservation's status, where a failure is ignored. -/
theorem writeReservationIgnoring_safe {F : World env → Prop} {status : ReservationStatus}
    {X : Err → World env → Prop}
    (hF : ∀ w w', Undisturbed i w w' → w'.state.ledgerCredits = w.state.ledgerCredits →
      F w → F w') (h : Running i p w ∧ F w) :
    (sagaDiscipline env).Safe i
      (fun _ w => (Running i p w ∧ F w) ∧
        (DbOk w.history → w.state.reservation.map (·.status) = some status))
      X (call (.updateReservation status)).ignoring w :=
  safe_ignoring (safe_mono (writeReservation_safe hF h) (fun _ _ hq => ⟨hq.1, fun _ => hq.2⟩)
    fun _ _ hx => ⟨hx.1, fun hok => absurd hok hx.2⟩)

/-- `completeSettledPayout`. -/
theorem completeSettledPayout_safe {destAmount reason : String} {evidence : Evidence}
    (hs : p.status = .payoutPending) (h : Running i p w ∧ Payable p w.state) :
    (sagaDiscipline env).Safe i (fun _ w => Leaves i w) (fun _ w => Leaves i w)
      (completeSettledPayout p destAmount reason evidence) w := by
  have hfail : ∀ w : World env, Running i p w → Leaves i w := fun w hw => hw.leaves hs
  refine safe_bind (safe_mono (creditOnce_safe hs h) ?_ fun _ w hx => hfail w hx.1)
  intro _ w hw
  refine safe_bind (safe_mono (writeReservationIgnoring_safe (F := fun w => Payable p w.state ∧
    w.state.ledgerCredits ≠ []) (fun _ _ hu hc hP => ⟨hP.1.frame hu, hc ▸ hP.2⟩) hw) ?_
    fun _ _ hx => hx)
  rintro _ w ⟨⟨hr, hp, hc⟩, hcons⟩
  have hstable :
      (sagaDiscipline env).Stable i (fun w => Running i p w ∧ w.state.ledgerCredits ≠ [] ∧
      (DbOk w.history → w.state.reservation.map (·.status) = some .consumed)) :=
    Running.stable fun w w' hf hF => by
      rw [hf.credits, hf.reservation]
      exact ⟨hF.1, fun hok => hF.2 (hok.of_suffix hf.history)⟩
  refine safe_bind (safe_mono (safe_audit hstable ⟨hr, hc, hcons⟩ _ _ _) ?_
    fun _ w hx => hfail w hx.1.1)
  rintro _ w ⟨hr, hc, hcons⟩
  refine safe_mono (markSettled_safe hs ⟨rfl, rfl, rfl⟩ ⟨rfl, rfl⟩ rfl (fun _ hj => hj)
    ⟨hr, hc, fun hx => ?_, hcons⟩) (fun _ _ hq => hq) fun _ w hx => hfail w hx.1
  obtain ⟨j, hj⟩ := hp.2 hx
  exact ⟨j, by simp [hj]⟩

/-- `reconcileDestinationPayout`: the payment is completed or left where it is, or its payout
has reverted. -/
theorem reconcileDestinationPayout_safe {destNet : Network} {destAmount reason : String}
    {F : World env → Prop} (hF : ∀ w w', Frame i w w' → F w → F w')
    (hs : p.destinationTxHash ≠ none → p.status = .payoutPending) (h : Running i p w ∧ F w) :
    (sagaDiscipline env).Safe i
      (fun r w => match r with
        | some _ => Leaves i w
        | none => (Running i p w ∧ F w) ∧ ∀ j, p.destinationTxHash = some j → Mined w.state j false)
      (fun _ w => Leaves i w) (reconcileDestinationPayout p destNet destAmount reason) w := by
  unfold reconcileDestinationPayout
  split
  · rename_i hnone
    exact ⟨h, fun j hj => by simp [hnone] at hj⟩
  · rename_i hash hhash
    have hpay : p.status = .payoutPending := hs (by simp [hhash])
    refine safe_bind (safe_mono (safe_transactionOutcome (Running.stable hF) h _ _) ?_
      fun _ _ hx => hx)
    rintro o w ⟨hw, hconf, hrev, habs⟩
    cases o with
    | confirmed =>
      refine safe_bind (safe_mono (completeSettledPayout_safe hpay
        ⟨hw.1, payable_of_mined hw.1 hhash (hconf rfl)⟩) ?_ fun _ _ hx => hx)
      exact fun _ _ hq => hq
    | unknown =>
      refine safe_bind (safe_mono (safe_audit Running.stable' hw.1 _ _ _) ?_
        fun _ _ hx => hx.1.leaves hpay)
      exact fun _ _ hw => Running.leaves hw hpay
    | reverted =>
      refine ⟨hw, fun j hj => ?_⟩
      rw [hhash, Option.some.injEq] at hj
      exact hj ▸ hrev rfl
    | absent => exact absurd rfl habs

end SettlementOS.Analysis
