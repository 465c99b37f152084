import SettlementOS.Analysis.PayoutHash

/-!
# The hash of a compensation

A compensation is broadcast at `COMPENSATION_PENDING`. When the write of its hash fails, the
`catch` reads the row back and writes the hash unless the row has one already: the hash of an
earlier attempt stays, and then only a receipt can save the new one.
-/

set_option autoImplicit false

namespace SettlementOS.Analysis

open SettlementOS.Computation Service Discipline Model Program

variable {env : Env} {i : ℕ} {p : Payment} {w w' : World env} {hash : Hash} {α : Type}
variable {ctx : CompensationContext}

/-! ## Standings of a compensation -/

/-- The compensation's hash is on the row. -/
def Held (i : ℕ) (hash : Hash) (w : World env) : Prop :=
  Standing i .compensationPending .compensation hash (Certain .compensation hash) w ∧
    w.state.payment.compensationTxHash = some hash

/-- It is not, and the write of it failed. -/
def Lacking (i : ℕ) (hash : Hash) (w : World env) : Prop :=
  Standing i .compensationPending .compensation hash (Missing hash) w ∧
    Unheld .compensation hash w.state

/-- A compensation that is pending is not approved. -/
theorem pending_ne_approved : (.compensationPending : PaymentStatus) ≠ .approved := by decide

/-- That the row carries the hash is a matter of the row. -/
theorem held_congr (hash : Hash) (s s' : State) (hp : s'.payment = s.payment)
    (_ : s'.ledgerCredits = s.ledgerCredits) (h : s.payment.compensationTxHash = some hash) :
    s'.payment.compensationTxHash = some hash := hp ▸ h

/-- That the transfer is unheld is a matter of the row and the credits. -/
theorem unheld_congr {leg : Leg} (hash : Hash) (s s' : State) (hp : s'.payment = s.payment)
    (hc : s'.ledgerCredits = s.ledgerCredits) (h : Unheld leg hash s) : Unheld leg hash s' :=
  h.congr hp hc

/-- A hash that is held survives what the others do. -/
theorem held_survives : (sagaDiscipline env).Survives i (Held i hash) :=
  standing_survives pending_ne_approved (held_congr hash)

/-- So does one that is lacking. -/
theorem lacking_survives : (sagaDiscipline env).Survives i (Lacking i hash) :=
  standing_survives pending_ne_approved (unheld_congr hash)

/-- A compensation whose hash is on the row is carried. -/
theorem Held.exit (h : Held i hash w) : Exit i w := by
  refine fun hlater => .inr ⟨h.1.inside, h.1.status ▸ pending_ne_approved, ?_⟩
  intro leg h' since hs
  rcases h.1.standing hlater leg h' since hs with hc | ⟨rfl, rfl, hk⟩
  · exact .closed hc
  · exact .carried hk.followed h.2 hk.recoverable

/-- One whose hash is not, and whose receipt was not read, is lost. -/
theorem Lacking.exit (h : Lacking i hash w) : Exit i w := by
  refine fun hlater => .inr ⟨h.1.inside, h.1.status ▸ pending_ne_approved, ?_⟩
  intro leg h' since hs
  rcases h.1.standing hlater leg h' since hs with hc | ⟨rfl, rfl, hk⟩
  · exact .closed hc
  · exact hk.resolved h.2.row

/-! ## The events of a compensation -/

/-- The event of a compensation that did not go through. -/
theorem finishes_compensationFailed {K : Trail → Prop} {F : State → Prop} {err : Err}
    (hF : ∀ s s', s'.payment = s.payment → s'.ledgerCredits = s.ledgerCredits → F s → F s')
    (hK : ∀ e since, (∀ h, receiptOf h e = none) → foundUnsent e = false → K since →
      K (e :: since))
    (hne : ∀ since, K since → since ≠ [])
    (hexit : ∀ w : World env, Standing i .compensationPending .compensation hash K w ∧
      F w.state → Exit i w)
    (hw : Standing i .compensationPending .compensation hash K w ∧ F w.state) :
    (sagaDiscipline env).Finishes i (fun _ => Exit i) (fun _ => Tidy i)
      (compensationFailed p ctx err) w := by
  apply finishes_bind
  refine finishes_mono (finishes_audit_open hF pending_ne_approved hK hne _ _ _ hw) ?_
    fun _ _ h => h
  exact fun _ w h => hexit w h

/-- A compensation known to have landed is recorded with its hash. -/
theorem finishes_completeCompensation {F : State → Prop}
    (hF : ∀ s s', s'.payment = s.payment → s'.ledgerCredits = s.ledgerCredits → F s → F s')
    (hp : p.status = .compensationPending)
    (hw : Standing i .compensationPending .compensation hash (Certain .compensation hash) w ∧
      F w.state) :
    (sagaDiscipline env).Finishes i (fun _ => Exit i) (fun _ => Tidy i)
      (completeCompensationFromConfirmed p ctx hash) w := by
  apply finishes_bind
  refine finishes_mono (finishes_audit_open hF pending_ne_approved (certain_cons _ hash)
    (fun _ h => h.followed) _ _ _ hw) ?_ fun _ _ h => h
  intro _ w h
  exact finishes_mono (finishes_moveWith hF pending_ne_approved hp (by decide) (by decide) rfl rfl
    h) (fun _ _ h => h) fun _ _ h => h.1

/-! ## The `catch` -/

/-- Reading the row back, and writing the hash where the row has none. -/
theorem finishes_persistIfMissing (hw : Lacking i hash w) :
    (sagaDiscipline env).Finishes i
      (fun _ w => Held i hash w ∨ Lacking i hash w ∨ Calm i w) (fun _ => Tidy i)
      (persistIfMissing hash) w := by
  apply finishes_bind
  refine finishes_mono (finishes_call (Q := fun (row : Payment) w =>
    (row.compensationTxHash = none → Standing i .compensationPending .compensation hash
      (Certain .compensation hash) w ∧ Unheld .compensation hash w.state) ∧
    (row.compensationTxHash ≠ none → Lacking i hash w)) (X := fun _ => Tidy i) lacking_survives
    hw ?_ ?_) ?_ fun _ _ h => h
  · intro w c row s _ hP he _
    refine ⟨fun hnone => ?_, fun hsome => ?_⟩
    · refine standing_of_plain (unheld_congr hash) hP he rfl (by simp) fun since _ => ?_
      refine ⟨List.cons_ne_nil _ _, fun _ => .inr ⟨rfl, _, List.mem_cons_self, ?_⟩⟩
      simp [foundUnsent, hnone]
    · refine standing_of_plain (unheld_congr hash) hP he rfl (by simp) fun since hk =>
        hk.cons rfl ?_
      exact Option.isNone_eq_false_iff.mpr (Option.isSome_iff_ne_none.mpr hsome)
  · intro w c e s _ hP he
    rcases failsInDb_of_exec rfl he with hf | hperf
    · exact hP.1.tidy_of_failure (fun _ h => h.followed) rfl hf
    · simp [Stmt.perform] at hperf
  · rintro row w ⟨hnone, hsome⟩
    split
    · rename_i hash' heq
      exact .inr (.inl (hsome (by simp [heq])))
    · rename_i heq
      apply finishes_ignoring
      refine finishes_mono (finishes_call (Q := fun _ => Held i hash)
        (X := fun _ => Calm i) (standing_survives pending_ne_approved
          (unheld_congr hash)) (hnone heq) ?_ ?_) (fun _ _ h => .inl h) fun _ _ h => .inr (.inr h)
      · rintro w c row s - ⟨hstand, -⟩ he -
        rcases exec_eq_some he with ⟨⟨m, hm⟩, -⟩ | hperf
        · cases hm
        · cases hperf
          exact ⟨hstand.cons (by simp [deedOf]) rfl hstand.status fun _ h => h.cons, rfl⟩
      · rintro w c e s - ⟨hstand, -⟩ he
        rcases failsInDb_of_exec rfl he with hf | hperf
        · exact ⟨hstand.tidy_of_failure (fun _ h => h.followed) rfl hf,
            inside_of_not_release (by simp [deedOf]) hstand.inside⟩
        · simp [Stmt.perform] at hperf

/-- Reading back a row that carries the hash. -/
theorem finishes_persistIfMissing_held (hw : Held i hash w) :
    (sagaDiscipline env).Finishes i (fun _ => Held i hash) (fun _ => Tidy i)
      (persistIfMissing hash) w := by
  apply finishes_bind
  refine finishes_mono (finishes_recorded (J := Certain .compensation hash) (held_congr hash)
    pending_ne_approved rfl (by simp [Stmt.perform]) rfl (by simp) (fun _ _ h => h.cons)
    (fun _ h => h.followed) hw) ?_ fun _ _ h => h
  rintro row w ⟨hheld, c, s, he, hs⟩
  have hrow : row.compensationTxHash = some hash := by
    rcases exec_eq_some he with ⟨⟨m, hm⟩, -⟩ | hperf
    · cases hm
    · simp only [Stmt.perform, Option.some.injEq, Prod.mk.injEq, Except.ok.injEq] at hperf
      exact hperf.1 ▸ hs
  rw [hrow]
  exact hheld

/-- The outcome of a compensation whose hash is on the row. -/
theorem finishes_outcome_held {network : Network} (hw : Held i hash w) :
    (sagaDiscipline env).Finishes i (fun _ => Held i hash) (fun (_ : Err) _ => False)
      (transactionOutcome network hash) w := by
  apply finishes_handle
  apply finishes_bind
  apply finishes_call held_survives hw
  · intro w c receipt s _ hP he _
    exact standing_of_plain (held_congr hash) hP he rfl (by simp) fun _ h => h.cons
  · intro w c e s _ hP he
    exact standing_of_plain (held_congr hash) hP he rfl (by simp) fun _ h => h.cons

/-- How the body of the `try` of a compensation may throw. -/
def CompensationThrew (i : ℕ) (e : Err × Payment) (w : World env) : Prop :=
  Calm i w ∨ ∃ hash, e.2.compensationTxHash = some hash ∧ e.2.status = .compensationPending ∧
    (Held i hash w ∨ Lacking i hash w)

/-- A statement that writes nothing keeps a hash on the row. -/
theorem finishes_held {o : Stmt} (ho : deedOf o = none) (hu : ∀ d, o ≠ .updatePayment d)
    (hw : Held i hash w) :
    (sagaDiscipline env).Finishes i (fun _ => Held i hash) (fun _ => Held i hash) (call o) w :=
  finishes_call held_survives hw
    (fun _ _ _ _ _ hP he _ => standing_of_plain (held_congr hash) hP he ho hu fun _ h => h.cons)
    fun _ _ _ _ _ hP he => standing_of_plain (held_congr hash) hP he ho hu fun _ h => h.cons

/-- Waiting for a compensation whose hash is on the row. -/
theorem finishes_confirm_held {network : Network} (hw : Held i hash w) :
    (sagaDiscipline env).Finishes i (fun _ => Held i hash) (fun _ => Held i hash)
      (confirm network hash) w := by
  apply finishes_bind
  refine finishes_mono (finishes_held rfl (by simp) hw) ?_ fun _ _ h => h
  intro receipt w h
  split
  · exact h
  · exact h

/-- A calm attempt that records what became of a compensation. -/
theorem finishes_calm_exit {q : Saga α} {D : List Deed} (hq : q.Uses (Within D))
    (hds : ∀ d ∈ D, calmDeed d = true) (hw : Calm i w) :
    (sagaDiscipline env).Finishes i (fun _ => Exit i) (fun _ => Tidy i) q w :=
  finishes_mono (finishes_calm hq hds hw) (fun _ _ h => h.tidy.exit) fun _ _ h => h.tidy

/-- What `recoverCompensation` does once it has looked the transaction up. -/
def outcomeRecovered (ctx : CompensationContext) (e : Err × Payment) (hash : Hash) :
    TransactionOutcome → Saga Payment
  | .confirmed => completeCompensationFromConfirmed e.2 ctx hash
  | _ => compensationFailed e.2 ctx e.1

/-- What becomes of a failed compensation leaves its transfers accounted for. -/
theorem finishes_recoverCompensation {e : Err × Payment} (hw : CompensationThrew i e w) :
    (sagaDiscipline env).Finishes i (fun _ => Exit i) (fun _ => Tidy i)
      (recoverCompensation ctx e) w := by
  rcases hw with hcalm | ⟨hash, hhash, hstatus, hw⟩
  · exact finishes_calm_exit (does_recoverCompensation ctx e (List.mem_singleton_self _))
      (by decide) hcalm
  · have hcalm : ∀ w : World env, Calm i w → (sagaDiscipline env).Finishes i (fun _ => Exit i)
        (fun _ => Tidy i) ((transactionOutcome ctx.network hash).bind
          (outcomeRecovered ctx e hash)) w := by
      intro w h
      refine finishes_calm_exit (D := [.move .compensated]) (Prog.Uses.bind
        (does_transactionOutcome _ _) fun outcome => ?_) (by decide) h
      unfold outcomeRecovered
      split
      · exact does_completeCompensationFromConfirmed _ _ _ (List.mem_singleton_self _)
      · exact does_compensationFailed _ _ _
    have hheld : ∀ w : World env, Held i hash w → (sagaDiscipline env).Finishes i
        (fun _ => Exit i) (fun _ => Tidy i) ((transactionOutcome ctx.network hash).bind
          (outcomeRecovered ctx e hash)) w := by
      intro w h
      apply finishes_bind
      apply finishes_mono (finishes_outcome_held h) _ fun _ _ h => h.elim
      intro outcome w h
      unfold outcomeRecovered
      split
      · exact finishes_completeCompensation (held_congr hash) hstatus h
      · exact finishes_compensationFailed (held_congr hash) (certain_cons _ hash)
          (fun _ h => h.followed) (fun _ h => Held.exit h) h
    have hlacking : ∀ w : World env, Lacking i hash w → (sagaDiscipline env).Finishes i
        (fun _ => Exit i) (fun _ => Tidy i) ((transactionOutcome ctx.network hash).bind
          (outcomeRecovered ctx e hash)) w := by
      intro w h
      apply finishes_bind
      apply finishes_mono (finishes_outcome pending_ne_approved h) _ fun _ _ h => h.elim
      intro outcome w h
      cases outcome with
      | confirmed => exact finishes_completeCompensation (unheld_congr hash) hstatus h
      | reverted =>
        exact finishes_calm_exit (D := []) (does_compensationFailed _ _ _) (by simp) h.toCalm
      | absent => exact h.elim
      | unknown =>
        exact finishes_compensationFailed (unheld_congr hash) (missing_cons hash)
          (fun _ h => h.followed) (fun _ h => Lacking.exit h) h
    unfold recoverCompensation
    rw [hhash]
    apply finishes_bind
    rcases hw with hw | hw
    · exact finishes_mono (finishes_persistIfMissing_held hw) (fun _ w h => hheld w h)
        fun _ _ h => h
    · refine finishes_mono (finishes_persistIfMissing hw) ?_ fun _ _ h => h
      rintro _ w (h | h | h)
      · exact hheld w h
      · exact hlacking w h
      · exact hcalm w h

/-! ## The body of the `try` -/

/-- Persisting the hash of a compensation. -/
theorem finishes_persistCompensation
    (hw : Standing i .compensationPending .compensation hash (· = []) w ∧
      Unheld .compensation hash w.state) :
    (sagaDiscipline env).Finishes i
      (fun row w => Held i hash w ∧ row.compensationTxHash = some hash ∧
        row.status = .compensationPending) (fun _ => Lacking i hash)
      (call (.updatePayment { compensationTxHash := some hash })) w := by
  apply finishes_call (standing_unheld_survives pending_ne_approved) hw
  · rintro w c row s - ⟨hstand, -⟩ he -
    rcases exec_eq_some he with ⟨⟨m, hm⟩, -⟩ | hp
    · cases hm
    · cases hp
      refine ⟨⟨hstand.cons (by simp [deedOf]) rfl hstand.status ?_, rfl⟩, rfl, hstand.status⟩
      rintro since rfl
      refine ⟨List.cons_ne_nil _ _, ?_⟩
      rintro ⟨x, hx, hf⟩
      cases hx
      cases hf
  · rintro w c e s - ⟨hstand, hunheld⟩ he
    rcases exec_eq_some he with ⟨⟨m, hm⟩, rfl⟩ | hp
    · cases hm
      exact ⟨hstand.cons (by simp [deedOf]) rfl hstand.status (missing_of_failure rfl rfl rfl),
        hunheld⟩
    · simp [Stmt.perform] at hp

/-- Sending a compensation leaves its transfers accounted for, or throws with the hash held or
lacking. -/
theorem finishes_sendCompensation (hp : p.status = .compensationPending)
    (hw : CalmAt i .compensationPending w) :
    (sagaDiscipline env).Finishes i (fun _ => Exit i) (CompensationThrew i)
      (sendCompensation env p ctx) w := by
  apply finishes_bind
  apply finishes_keeping
  apply finishes_mono (finishes_transfer pending_ne_approved hw) _ fun _ _ h => .inl h.toCalm
  intro hash w hopen
  apply finishes_bind
  apply finishes_keeping
  refine finishes_mono (finishes_persistCompensation hopen) ?_
    fun _ _ h => .inr ⟨hash, rfl, hp, .inr h⟩
  rintro row w ⟨hheld, hhash, hrow⟩
  have hthrew : ∀ (e : Err) (w : World env), Held i hash w → CompensationThrew i (e, row) w :=
    fun _ _ h => .inr ⟨hash, hhash, hrow, .inl h⟩
  apply finishes_bind
  apply finishes_keeping
  apply finishes_mono (finishes_held rfl (by simp) hheld) _ hthrew
  intro _ w hheld
  apply finishes_bind
  apply finishes_keeping
  apply finishes_mono (finishes_confirm_held hheld) _ hthrew
  intro _ w hheld
  apply finishes_bind
  apply finishes_keeping
  apply finishes_mono (finishes_held rfl (by simp) hheld) _ hthrew
  intro _ w hheld
  apply finishes_keeping
  exact finishes_mono (finishes_moveWith (held_congr hash) pending_ne_approved hrow (by decide)
    (by decide) rfl rfl hheld) (fun _ _ h => h) fun e w h => hthrew e w h.2

/-- A statement that writes nothing keeps an attempt calm at its status. -/
theorem finishes_calmAt {status : PaymentStatus} (hst : status ≠ .approved) {o : Stmt}
    (ho : deedOf o = none) (hu : ∀ d, o ≠ .updatePayment d) (hw : CalmAt i status w) :
    (sagaDiscipline env).Finishes i (fun _ => CalmAt i status) (fun _ => CalmAt i status)
      (call o) w := by
  have hkept : ∀ (w : World env) c (r : Except Err o.Result) s, CalmAt i status w →
      o.exec c w.state = some (r, s) →
      CalmAt i status (⟨s, ⟨i, o, r⟩ :: w.history⟩ : World env) := by
    intro w c r s h he
    have hrow := (rows_of_exec he ho hu).1
    exact ⟨h.toCalm.cons (by simp [ho]) (broadcast_of_deed (by simp [ho]) (by simp [ho])),
      hrow ▸ h.status⟩
  exact finishes_call (calmAt_survives hst) hw (fun w c a s _ h he _ => hkept w c _ s h he)
    fun w c e s _ h he => hkept w c _ s h he

/-- A calm attempt at a status reads a receipt. -/
theorem finishes_outcome_calm {status : PaymentStatus} (hst : status ≠ .approved)
    {network : Network} (hw : CalmAt i status w) :
    (sagaDiscipline env).Finishes i (fun _ => CalmAt i status) (fun (_ : Err) _ => False)
      (transactionOutcome network hash) w := by
  apply finishes_handle
  apply finishes_bind
  exact finishes_calmAt hst rfl (by simp) hw

/-- A compensation with its failures leaves its transfers accounted for. -/
theorem finishes_runCompensationTransfer (hp : p.status = .compensationPending)
    (hw : CalmAt i .compensationPending w) :
    (sagaDiscipline env).Finishes i (fun _ => Exit i) (fun _ => Tidy i)
      (runCompensationTransfer env p ctx) w := by
  have htransfer : ∀ w : World env, CalmAt i .compensationPending w →
      (sagaDiscipline env).Finishes i (fun _ => Exit i) (fun _ => Tidy i)
        ((sendCompensation env p ctx).handle (recoverCompensation ctx)) w := fun w h =>
    finishes_handle (finishes_mono (finishes_sendCompensation hp h) (fun _ _ h => h)
      fun _ _ h => finishes_recoverCompensation h)
  unfold runCompensationTransfer
  cases hprior : p.compensationTxHash with
  | none => exact htransfer w hw
  | some prior =>
    apply finishes_bind
    apply finishes_mono (finishes_outcome_calm pending_ne_approved hw) _ fun _ _ h => h.elim
    intro outcome w h
    cases outcome with
    | confirmed =>
      exact finishes_calm_exit
        (does_completeCompensationFromConfirmed _ _ _ (List.mem_singleton_self _)) (by decide)
        h.toCalm
    | unknown =>
      exact finishes_calm_exit (D := [])
        (Prog.Uses.bind (does_audit _ _ _) fun _ => trivial) (by simp) h.toCalm
    | reverted => exact htransfer w h
    | absent => exact htransfer w h

end SettlementOS.Analysis
