import SettlementOS.Analysis.Carrying

/-!
# The hash of a payout

A payout is broadcast at `PAYOUT_PENDING`. If its hash is written, nothing is left open; if not,
the `catch` goes by the receipt: a payout that has landed is completed with the hash, one that
reverted is undone, and when no receipt can be read the hash is lost.
-/

set_option autoImplicit false

namespace SettlementOS.Analysis

open SettlementOS.Computation Service Discipline Model Program

variable {env : Env} {i : ℕ} {p : Payment} {w w' : World env} {hash : Hash} {α : Type}

/-- The row does not carry the hash, and nobody has been credited on the strength of a payout. -/
structure Unheld (leg : Leg) (hash : Hash) (s : State) : Prop where
  row : hashOf leg s.payment ≠ some hash
  uncredited : leg = .destinationPayout → s.ledgerCredits = []

/-- That a transfer is unheld depends on the row and the credits alone. -/
theorem Unheld.congr {leg : Leg} {s s' : State} (h : Unheld leg hash s)
    (hp : s'.payment = s.payment) (hc : s'.ledgerCredits = s.ledgerCredits) :
    Unheld leg hash s' :=
  ⟨hp ▸ h.row, fun hl => hc.trans (h.uncredited hl)⟩

/-! ## Broadcasting -/

/-- The attempt is calm at a status. -/
structure CalmAt (i : ℕ) (status : PaymentStatus) (w : World env) : Prop extends Calm i w where
  status : w.state.payment.status = status

/-- An attempt that is calm at a status stays so, whatever the others do. -/
theorem calmAt_survives {status : PaymentStatus} (hst : status ≠ .approved) :
    (sagaDiscipline env).Survives i (CalmAt i status) := by
  intro w w' h hm
  have hframe := frame_of_meanwhile hm h.inside (h.status ▸ hst)
  exact ⟨calm_survives w w' h.toCalm hm, hframe.payment ▸ h.status⟩

/-- The hash of a transfer that is about to be sent is on no row. -/
theorem unheld_of_sent {leg : Leg} {network : Network} {token recipient : String} {amount : ℕ}
    (hinv : Inv w) (hinv' : Inv (⟨send w.state network (.transfer leg token recipient amount),
      ⟨i, .writeContract network (.transfer leg token recipient amount),
        .ok w.state.txs.length⟩ :: w.history⟩ : World env)) :
    Unheld leg w.state.txs.length
    (send w.state network (.transfer leg token recipient amount)) where
  row := by
    have hnew : ∀ k, ¬ Sent w.state k w.state.txs.length := by
      rintro k ⟨tx, htx, -⟩
      exact absurd (List.getElem?_eq_some_iff.mp htx).1 (Nat.lt_irrefl _)
    intro hrow
    cases leg with
    | destinationPayout => exact hnew _ (hinv.truth.payoutHash _ hrow)
    | compensation => exact hnew _ (hinv.truth.compensationHash _ hrow)
  uncredited := by
    rintro rfl
    by_contra hcredit
    obtain ⟨tx, r, htx, hr, -⟩ := hinv'.truth.paid hcredit w.state.txs.length
      (sent_send.mpr (.inr ⟨rfl, rfl⟩))
    simp only [send, List.getElem?_concat_length, Option.some.injEq] at htx
    subst htx
    cases hr

/-- A treasury transfer that was sent is open. -/
theorem finishes_transfer {leg : Leg} {status : PaymentStatus} (hst : status ≠ .approved)
    {network : Network} {symbol : AssetSymbol} {recipient : String} {amount : ℕ}
    (hw : CalmAt i status w) :
    (sagaDiscipline env).Finishes i
      (fun hash w => Standing i status leg hash (· = []) w ∧ Unheld leg hash w.state)
      (fun _ => CalmAt i status) (treasuryTokenTransfer env leg network symbol recipient amount)
      w := by
  have hlift : ∀ {β : Type} {x : Except Err β} {f : β → Saga Hash} {Q : Hash → World env → Prop}
      {w : World env}, CalmAt i status w → (∀ b, CalmAt i status w →
        (sagaDiscipline env).Finishes i Q (fun _ => CalmAt i status) (f b) w) →
      (sagaDiscipline env).Finishes i Q (fun _ => CalmAt i status) ((lift x).bind f) w :=
    fun hw hf => finishes_bind (finishes_ofExcept (fun b _ => hf b hw) fun _ _ => hw)
  apply hlift hw
  intro contracts hw
  apply hlift hw
  intro token hw
  apply hlift hw
  intro _ hw
  apply finishes_call (calmAt_survives hst) hw
  · intro w c a s hinv hcalm he hinv'
    rcases exec_eq_some he with ⟨⟨m, hm⟩, -⟩ | hp
    · cases hm
    · simp only [Stmt.perform, Option.some.injEq, Prod.mk.injEq, Except.ok.injEq] at hp
      obtain ⟨rfl, rfl⟩ := hp
      refine ⟨⟨inside_of_not_release (by simp [deedOf]) hcalm.inside, hcalm.status, ?_⟩,
        unheld_of_sent hinv hinv'⟩
      rw [trail_cons]
      exact fun hlater => (hcalm.tidy hlater.tail).opened rfl
  · intro w c e s _ hcalm he
    rcases exec_eq_some he with ⟨-, rfl⟩ | hp
    · exact ⟨hcalm.toCalm.cons (by simp [deedOf]) rfl, hcalm.status⟩
    · simp [Stmt.perform] at hp

/-! ## The bridge leg -/

/-- The payout's hash is not written. -/
def Unwritten (i : ℕ) (hash : Hash) (w : World env) : Prop :=
  Standing i .payoutPending .destinationPayout hash (Missing hash) w ∧
    Unheld .destinationPayout hash w.state

/-- A transfer that stands open and unheld stands so whatever the others do. -/
theorem standing_unheld_survives {leg : Leg} {status : PaymentStatus} {K : Trail → Prop}
    (hst : status ≠ .approved) : (sagaDiscipline env).Survives i fun w =>
      Standing i status leg hash K w ∧ Unheld leg hash w.state :=
  standing_survives hst fun _ _ hp hc h => h.congr hp hc

/-- The write that fails right after the broadcast. -/
theorem missing_of_failure {o : Stmt} {r : Except Err o.Result} (hf : failsInDb ⟨o, r⟩ = true)
    (hr : receiptOf hash ⟨o, r⟩ = none) (hu : foundUnsent ⟨o, r⟩ = false) :
    ∀ since : Trail, since = [] → Missing hash (⟨o, r⟩ :: since) := by
  rintro since rfl
  refine ⟨List.cons_ne_nil _ _, ⟨_, rfl, hf⟩, ?_, ?_⟩
  · rintro ⟨x, hx, hx'⟩
    rw [List.mem_singleton.mp hx, hr] at hx'
    cases hx'
  · intro x hx
    rw [List.mem_singleton.mp hx]
    exact hu

/-- Persisting the hash of a payout. -/
theorem finishes_persistPayout
    (hw : Standing i .payoutPending .destinationPayout hash (· = []) w ∧
      Unheld .destinationPayout hash w.state) :
    (sagaDiscipline env).Finishes i (fun _ => Calm i) (fun _ => Unwritten i hash)
      (call (.updatePayment { destinationTxHash := some hash })) w := by
  apply finishes_call (standing_unheld_survives (by decide)) hw
  · rintro w c row s - ⟨hstand, -⟩ he -
    refine ⟨?_, inside_of_not_release (by simp [deedOf]) hstand.inside⟩
    unfold Tidy
    rw [trail_cons]
    intro hlater
    refine Open.sealed (K := fun since => since = [⟨.updatePayment
      { destinationTxHash := some hash }, .ok row⟩]) ((hstand.standing hlater.tail).cons rfl ?_) ?_
    · rintro since rfl
      rfl
    · rintro since rfl
      refine ⟨List.cons_ne_nil _ _, ?_, .inr ⟨rfl, _, List.mem_cons_self, rfl⟩⟩
      rintro ⟨x, hx, hf⟩
      cases hx
      cases hf
  · rintro w c e s - ⟨hstand, hunheld⟩ he
    rcases exec_eq_some he with ⟨⟨m, hm⟩, rfl⟩ | hp
    · cases hm
      exact ⟨hstand.cons (by simp [deedOf]) rfl hstand.status (missing_of_failure rfl rfl rfl),
        hunheld⟩
    · simp [Stmt.perform] at hp

/-- The local row has the hash of a payout that is not written. -/
structure Local (i : ℕ) (p : Payment) (hash : Hash) (w : World env) : Prop where
  unwritten : Unwritten i hash w
  hash : p.destinationTxHash = some hash
  status : p.status = .payoutPending

/-- How the body of an execution's `try` may throw. -/
def Threw (i : ℕ) (e : Err × Payment) (w : World env) : Prop :=
  Calm i w ∨ ∃ hash, Local i e.2 hash w

/-- The bridge leg ends calm, or throws with its transfer accounted for. -/
theorem finishes_bridgeLeg {plan : Plan} {units : ℕ} (hp : p.status = .payoutPending)
    (hw : CalmAt i .payoutPending w) :
    (sagaDiscipline env).Finishes i (fun _ => Calm i) (Threw i) (bridgeLeg env plan units p) w := by
  apply finishes_bind
  apply finishes_keeping
  apply finishes_mono (finishes_transfer (by decide) hw) _ fun _ _ h => .inl h.toCalm
  intro hash w hopen
  apply finishes_bind
  apply finishes_keeping
  refine finishes_mono (finishes_persistPayout hopen) ?_ fun _ _ h => .inr ⟨hash, h, rfl, hp⟩
  intro row w hcalm
  have hrest : (sagaDiscipline env).Finishes i (fun _ => Calm i) (fun _ => Calm i)
      (((audit "bridge.destination_payout_submitted" (plan.payoutDetail hash) row.id).keeping
        row).bind fun _ => ((confirm plan.destNet hash).keeping row).bind fun _ =>
        ((audit "bridge.destination_payout" (plan.payoutDetail hash) row.id).keeping row).bind
          fun _ => .ret row) w :=
    finishes_calm (D := []) (Prog.Uses.bind (does_audit _ _ _).keeping fun _ =>
      Prog.Uses.bind (does_confirm _ _).keeping fun _ =>
      Prog.Uses.bind (does_audit _ _ _).keeping fun _ => trivial) (by simp) hcalm
  exact finishes_mono hrest (fun _ _ h => h) fun _ _ h => .inl h

/-! ## Statements that leave a transfer open -/

section Plain

variable {status : PaymentStatus} {leg : Leg} {J K : Trail → Prop} {F : State → Prop}

/-- A statement that writes neither the row nor a credit leaves the transfer open. -/
theorem standing_of_plain
    (hF : ∀ s s', s'.payment = s.payment → s'.ledgerCredits = s.ledgerCredits → F s → F s')
    {o : Stmt} {c : Choice} {r : Except Err o.Result} {s : State}
    (h : Standing i status leg hash K w ∧ F w.state)
    (he : o.exec c w.state = some (r, s)) (ho : deedOf o = none)
    (hu : ∀ d, o ≠ .updatePayment d) (hK : ∀ since, K since → J (⟨o, r⟩ :: since)) :
    Standing i status leg hash J (⟨s, ⟨i, o, r⟩ :: w.history⟩ : World env) ∧ F s := by
  obtain ⟨hrow, hcredits⟩ := rows_of_exec he ho hu
  refine ⟨h.1.cons (by simp [ho]) (broadcast_of_deed (by simp [ho]) (by simp [ho])) ?_ hK,
    hF _ _ hrow hcredits h.2⟩
  rw [hrow, h.1.status]

/-- A database statement that can fail in no other way. -/
theorem finishes_recorded
    (hF : ∀ s s', s'.payment = s.payment → s'.ledgerCredits = s.ledgerCredits → F s → F s')
    {o : Stmt} (hst : status ≠ .approved) (hdb : o.isDatabase = true)
    (hnever : ∀ c s e s', o.perform c s ≠ some (.error e, s'))
    (ho : deedOf o = none) (hu : ∀ d, o ≠ .updatePayment d)
    (hK : ∀ r since, K since → J (⟨o, r⟩ :: since)) (hne : ∀ since, K since → since ≠ [])
    (hw : Standing i status leg hash K w ∧ F w.state) :
    (sagaDiscipline env).Finishes i
      (fun a w' => (Standing i status leg hash J w' ∧ F w'.state) ∧
        ∃ c s, o.exec c s = some (.ok a, w'.state) ∧ F s)
      (fun _ => Tidy i) (call o) w := by
  apply finishes_call (standing_survives hst hF) hw
  · intro w c a s _ hP he _
    exact ⟨standing_of_plain hF hP he ho hu (hK _), c, _, he, hP.2⟩
  · intro w c e s _ hP he
    rcases failsInDb_of_exec hdb he with hf | hp
    · exact hP.1.tidy_of_failure hne (broadcast_of_deed (by simp [ho]) (by simp [ho])) hf
    · exact absurd hp (hnever c _ e s)

/-- An event leaves a transfer standing open. -/
theorem finishes_audit_open
    (hF : ∀ s s', s'.payment = s.payment → s'.ledgerCredits = s.ledgerCredits → F s → F s')
    (hst : status ≠ .approved)
    (hK : ∀ e since, (∀ h, receiptOf h e = none) → foundUnsent e = false → K since →
      K (e :: since))
    (hne : ∀ since, K since → since ≠ []) (action : String) (detail : Detail) (id : String)
    (hw : Standing i status leg hash K w ∧ F w.state) :
    (sagaDiscipline env).Finishes i (fun _ w => Standing i status leg hash K w ∧ F w.state)
      (fun _ => Tidy i) (audit action detail id) w := by
  refine finishes_mono (finishes_recorded (J := K) hF hst rfl (by simp [Stmt.perform]) rfl
    (by simp) ?_ hne hw) (fun _ _ h => h.1) fun _ _ h => h
  exact fun r since hk => hK _ since (fun _ => rfl) rfl hk

/-- What the receipt of an open transfer says. -/
theorem finishes_outcome {network : Network} (hst : status ≠ .approved)
    (hw : Standing i status leg hash (Missing hash) w ∧ Unheld leg hash w.state) :
    (sagaDiscipline env).Finishes i
      (fun outcome w => match outcome with
        | .confirmed => Standing i status leg hash (Certain leg hash) w ∧ Unheld leg hash w.state
        | .reverted => CalmAt i status w
        | .unknown => Standing i status leg hash (Missing hash) w ∧ Unheld leg hash w.state
        | .absent => False)
      (fun (_ : Err) _ => False) (transactionOutcome network hash) w := by
  apply finishes_handle
  apply finishes_bind
  apply finishes_call (standing_unheld_survives hst) hw
  · intro w c receipt s _ hP he _
    cases receipt with
    | none =>
      -- a node that finds no receipt fails
      rcases exec_eq_some he with ⟨⟨m, hm⟩, -⟩ | hp
      · cases hm
      · simp only [Stmt.perform] at hp
        split at hp <;> cases hp
    | some receipt =>
      have hread : receiptOf hash ⟨.getTransactionReceipt network hash, .ok (some receipt)⟩ =
          some receipt.success := if_pos rfl
      cases hs : receipt.success with
      | true =>
        simp only [finishes_ret_iff, outcomeOf, hs, if_true]
        exact standing_of_plain (fun _ _ hp hc h => Unheld.congr h hp hc) hP he rfl (by simp)
          fun since _ => Missing.certain hread
      | false =>
        simp only [finishes_ret_iff, outcomeOf, hs, Bool.false_eq_true, if_false]
        obtain ⟨hstand, hunheld⟩ := standing_of_plain (J := Closed leg hash)
          (fun _ _ hp hc h => Unheld.congr h hp hc) hP he rfl (by simp)
          fun since _ => ⟨List.cons_ne_nil _ _, (Missing.certain hread).recoverable,
            .inl ⟨_, List.mem_cons_self, hread.trans (by rw [hs])⟩⟩
        exact ⟨⟨fun hlater => (hstand.standing hlater).sealed fun _ h => h, hstand.inside⟩,
          hstand.status⟩
  · intro w c e s _ hP he
    exact standing_of_plain (fun _ _ hp hc h => Unheld.congr h hp hc) hP he rfl (by simp)
      fun since hm => hm.cons rfl rfl

end Plain

/-! ## Status changes -/

/-- A calm attempt that moves the payment is calm at the new status. -/
theorem finishes_move {next : PaymentStatus} {opts : TransitionOpts}
    (hd : opts.data.status = none) (hw : Calm i w) :
    (sagaDiscipline env).Finishes i (fun row w => CalmAt i next w ∧ row.status = next)
      (fun _ => Calm i) (transitionStatus p next opts) w := by
  unfold transitionStatus
  split
  · apply finishes_bind
    refine finishes_mono (finishes_call (Q := fun row w => Calm i w ∧ ∀ p, row = some p →
      w.state.payment = p ∧ p.status = next) (X := fun _ => Calm i) calm_survives hw ?_ ?_) ?_
      fun _ _ h => h
    · intro w c row s _ hP he _
      refine ⟨hP.cons (deedOf_transition _ _ _) rfl, ?_⟩
      rcases exec_eq_some he with ⟨⟨m, hm⟩, -⟩ | hp
      · cases hm
      · simp only [Stmt.perform, Option.some.injEq, Prod.mk.injEq, Except.ok.injEq] at hp
        obtain ⟨rfl, rfl⟩ := hp
        intro q hq
        unfold State.transition at hq ⊢
        split at hq
        · cases hq
          rw [if_pos ‹_›]
          exact ⟨rfl, apply_status _ _ _ hd⟩
        · cases hq
    · intro w c e s _ hP _
      exact hP.cons (deedOf_transition _ _ _) rfl
    · rintro row w ⟨hcalm, hrow⟩
      cases row with
      | none => exact hcalm
      | some q =>
        obtain ⟨hpay, hq⟩ := hrow q rfl
        exact ⟨⟨hcalm, hpay ▸ hq⟩, hq⟩
  · exact hw

/-! ## Completing a payout whose hash is not written -/

variable {leg : Leg} {status : PaymentStatus}

/-- Moving a payment to its end with the hash carries it. -/
theorem finishes_moveWith {next : PaymentStatus} {opts : TransitionOpts} {F : State → Prop}
    (hF : ∀ s s', s'.payment = s.payment → s'.ledgerCredits = s.ledgerCredits → F s → F s')
    (hst : status ≠ .approved) (hp : p.status = status) (hcan : canTransition status next = true)
    (hnext : next ≠ .approved) (hd : opts.data.status = none)
    (hhash : patchOf leg opts.data = some hash)
    (hw : Standing i status leg hash (Certain leg hash) w ∧ F w.state) :
    (sagaDiscipline env).Finishes i (fun _ => Exit i)
      (fun _ w => Tidy i w ∧ Standing i status leg hash (Certain leg hash) w ∧ F w.state)
      (transitionStatus p next opts) w := by
  unfold transitionStatus
  rw [hp, if_pos hcan]
  apply finishes_bind
  refine finishes_mono (finishes_call (Q := fun row w => row ≠ none ∧ Exit i w)
    (X := fun _ w => Tidy i w ∧ Standing i status leg hash (Certain leg hash) w ∧ F w.state)
    (standing_survives hst hF) hw ?_ ?_) ?_ fun _ _ h => h
  · rintro w c row s - ⟨hstand, -⟩ he -
    have hhold := hashOf_of_exec he leg
    rcases exec_eq_some he with ⟨⟨m, hm⟩, -⟩ | hperf
    · cases hm
    · simp only [Stmt.perform, State.transition, if_pos hstand.status, Option.some.injEq,
        Prod.mk.injEq, Except.ok.injEq] at hperf
      obtain ⟨rfl, rfl⟩ := hperf
      refine ⟨by simp, fun hlater =>
        .inr ⟨inside_of_not_release (deedOf_transition _ _ _) hstand.inside, ?_, ?_⟩⟩
      · simp only [apply_status _ _ _ hd]
        exact hnext
      · rw [trail_cons] at hlater ⊢
        intro leg' h' since hs
        obtain ⟨since', rfl, hs'⟩ := (since_cons_plain rfl).mp hs
        rcases hstand.standing hlater.tail leg' h' since' hs' with hc | ⟨rfl, rfl, hk⟩
        · exact .closed hc.cons
        · refine .carried (List.cons_ne_nil _ _) (hhold.trans ?_) hk.cons.recoverable
          simp [persists, hhash]
  · rintro w c e s - ⟨hstand, hf⟩ he
    rcases failsInDb_of_exec rfl he with hfail | hperf
    · refine ⟨hstand.tidy_of_failure (fun _ h => h.followed) rfl hfail, ?_⟩
      rcases exec_eq_some he with ⟨-, rfl⟩ | hperf
      · exact ⟨hstand.cons (deedOf_transition _ _ _) rfl hstand.status fun _ h => h.cons, hf⟩
      · simp [Stmt.perform] at hperf
    · simp [Stmt.perform] at hperf
  · rintro row w ⟨hne, hexit⟩
    cases row with
    | none => exact absurd rfl hne
    | some q => exact hexit

/-- What is certain stays certain while no receipt is read. -/
theorem certain_cons (leg : Leg) (hash : Hash) : ∀ (e : Event sagaEffects) (since : Trail),
    (∀ h, receiptOf h e = none) → foundUnsent e = false → Certain leg hash since →
      Certain leg hash (e :: since) := fun _ _ _ _ h => h.cons

/-- What is missing stays missing while neither a receipt nor the row is read. -/
theorem missing_cons (hash : Hash) : ∀ (e : Event sagaEffects) (since : Trail),
    (∀ h, receiptOf h e = none) → foundUnsent e = false → Missing hash since →
      Missing hash (e :: since) := fun _ _ hr hf h => h.cons (hr hash) hf

/-- Crediting the ledger once nobody can have been credited. -/
theorem finishes_creditOnce {amount : String}
    (hw : Standing i .payoutPending .destinationPayout hash
      (Certain .destinationPayout hash) w ∧ Unheld .destinationPayout hash w.state) :
    (sagaDiscipline env).Finishes i
      (fun _ => Standing i .payoutPending .destinationPayout hash
        (Certain .destinationPayout hash)) (fun _ => Tidy i) (creditOnce p amount) w := by
  have hst : (.payoutPending : PaymentStatus) ≠ .approved := by decide
  apply finishes_bind
  refine finishes_mono (finishes_recorded (J := Certain .destinationPayout hash)
    (fun _ _ hp hc h => Unheld.congr h hp hc) hst rfl (by simp [Stmt.perform]) rfl (by simp)
    (fun _ _ h => h.cons) (fun _ h => h.followed) hw) ?_ fun _ _ h => h
  rintro credit w ⟨hP, -⟩
  cases credit with
  | some credit => exact hP.1
  | none =>
    apply finishes_bind
    refine finishes_mono (finishes_call (Q := fun _ => Standing i .payoutPending
      .destinationPayout hash (Certain .destinationPayout hash)) (X := fun _ => Tidy i)
      (standing_unheld_survives hst) hP ?_ ?_) ?_ fun _ _ h => h
    · rintro w c _ s - ⟨hstand, hunheld⟩ he -
      refine hstand.cons (by simp [deedOf]) rfl ?_ fun _ h => h.cons
      rcases exec_eq_some he with ⟨⟨m, hm⟩, -⟩ | hperf
      · cases hm
      · simp only [Stmt.perform] at hperf
        split at hperf <;> cases hperf
        exact hstand.status
    · rintro w c e s - ⟨hstand, hunheld⟩ he
      rcases failsInDb_of_exec rfl he with hf | hperf
      · exact hstand.tidy_of_failure (fun _ h => h.followed) rfl hf
      · simp [Stmt.perform, hunheld.uncredited rfl] at hperf
    · intro _ w hstand
      exact finishes_mono (finishes_audit_open (F := fun _ => True) (fun _ _ _ _ h => h) hst
        (certain_cons _ hash) (fun _ h => h.followed) _ _ _ ⟨hstand, trivial⟩)
        (fun _ _ h => h.1) fun _ _ h => h

/-- A payout known to have landed is completed with its hash. -/
theorem finishes_completeSettledPayout {amount reason : String} {evidence : Evidence}
    (hp : p.status = .payoutPending) (hhash : p.destinationTxHash = some hash)
    (hw : Standing i .payoutPending .destinationPayout hash
      (Certain .destinationPayout hash) w ∧ Unheld .destinationPayout hash w.state) :
    (sagaDiscipline env).Finishes i (fun _ => Exit i) (fun _ => Tidy i)
      (completeSettledPayout p amount reason evidence) w := by
  have hst : (.payoutPending : PaymentStatus) ≠ .approved := by decide
  have hwrite : patchOf .destinationPayout
      ({ destinationTxHash := p.destinationTxHash } : PaymentPatch) = some hash := hhash
  apply finishes_bind
  apply finishes_mono (finishes_creditOnce hw) _ fun _ _ h => h
  intro _ w hstand
  apply finishes_bind
  apply finishes_ignoring
  have hreserved : ∀ {w : World env} {r s c}, Standing i .payoutPending .destinationPayout hash
      (Certain .destinationPayout hash) w ∧ True →
      Stmt.exec (.updateReservation .consumed) c w.state = some (r, s) →
      Standing i .payoutPending .destinationPayout hash (Certain .destinationPayout hash)
        (⟨s, ⟨i, .updateReservation .consumed, r⟩ :: w.history⟩ : World env) := fun h he =>
    (standing_of_plain (F := fun _ => True) (fun _ _ _ _ h => h) h he rfl (by simp)
      fun _ hk => hk.cons).1
  refine finishes_mono (finishes_call (Q := fun _ => Standing i .payoutPending .destinationPayout
    hash (Certain .destinationPayout hash)) (X := fun _ => Standing i .payoutPending
    .destinationPayout hash (Certain .destinationPayout hash))
    (standing_survives hst (F := fun _ => True) fun _ _ _ _ h => h) ⟨hstand, trivial⟩
    (fun w c a s _ h he _ => hreserved h he) fun w c e s _ h he => hreserved h he) ?_ ?_
  all_goals
    intro _ w hstand
    apply finishes_bind
    refine finishes_mono (finishes_audit_open (F := fun _ => True) (fun _ _ _ _ h => h) hst
      (certain_cons _ hash) (fun _ h => h.followed) _ _ _ ⟨hstand, trivial⟩) ?_ fun _ _ h => h
    rintro _ w ⟨hstand, -⟩
    exact finishes_mono (finishes_moveWith (F := fun _ => True) (fun _ _ _ _ h => h) hst hp
      (by decide) (by decide) rfl hwrite ⟨hstand, trivial⟩) (fun _ _ h => h) fun _ _ h => h.1

/-! ## The body of the `try` -/

/-- Paying the recipient ends calm, or throws with its transfer accounted for. -/
theorem finishes_payRecipient {plan : Plan} {units : ℕ} (hp : p.status = .payoutPending)
    (hw : CalmAt i .payoutPending w) :
    (sagaDiscipline env).Finishes i (fun _ => Calm i) (Threw i) (payRecipient env plan units p)
      w := by
  unfold payRecipient
  split
  · exact finishes_bridgeLeg hp hw
  · exact hw.toCalm

/-- So does the payout leg. -/
theorem finishes_payoutLeg {plan : Plan} {units : ℕ} (hw : Calm i w) :
    (sagaDiscipline env).Finishes i (fun _ => Calm i) (Threw i) (payoutLeg env plan units p)
      w := by
  apply finishes_bind
  apply finishes_keeping
  refine finishes_mono (finishes_move rfl hw) ?_ fun _ _ h => .inl h
  rintro row w ⟨hcalm, hrow⟩
  apply finishes_bind
  apply finishes_mono (finishes_payRecipient hrow hcalm) _ fun _ _ h => h
  intro row w hcalm
  have hrest : (((creditRecipient row plan.destAmount).keeping row).bind fun _ =>
      ((call (.updateReservation .consumed)).keeping row).bind fun _ =>
      (setStatus row .settled {} []).keeping row).Uses (Within completionDeeds) :=
    Prog.Uses.bind (does_creditRecipient _ _ (by decide)).keeping fun _ =>
      Prog.Uses.bind (does_plain rfl).keeping fun _ =>
      (does_setStatus _ _ _ (by decide) rfl).keeping
  exact finishes_mono (finishes_calm hrest (by decide) hcalm) (fun _ _ h => h)
    fun _ _ h => .inl h

/-- So does settling. -/
theorem finishes_settle {plan : Plan} {pid : String} {units : ℕ} (hw : Calm i w) :
    (sagaDiscipline env).Finishes i (fun _ => Calm i) (Threw i) (settle env plan pid units p)
      w := by
  apply finishes_bind
  refine finishes_mono (finishes_calm (does_escrowLeg plan pid units p (List.Subset.refl _))
    (by decide) hw) ?_ fun _ _ h => .inl h
  rintro ⟨row, initTx⟩ w hcalm
  apply finishes_bind
  refine finishes_mono (finishes_calm (does_settlementLeg plan pid initTx row
    (List.Subset.refl _)) (by decide) hcalm) ?_ fun _ _ h => .inl h
  rintro ⟨row, settledUnits⟩ w hcalm
  exact finishes_payoutLeg hcalm

end SettlementOS.Analysis
