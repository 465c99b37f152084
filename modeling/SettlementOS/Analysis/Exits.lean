import SettlementOS.Analysis.CompensationHash

/-!
# Where a request leaves its transfers

The `catch` of an execution, the leased sections and the requests. However a request ends, each
transfer it broadcast is closed, carried by the row, or lost, and lost only when the write of its
hash failed and nothing it was answered afterwards made up for that.
-/

set_option autoImplicit false

namespace SettlementOS.Analysis

open SettlementOS.Computation Service Discipline Model Program

variable {env : Env} {i : ℕ} {p : Payment} {w w' : World env} {hash : Hash} {α β : Type}

/-! ## The `catch` of an execution -/

/-- A compensation leaves its transfers accounted for. -/
theorem finishes_compensateSender {ctx : CompensationContext} (hw : Calm i w) :
    (sagaDiscipline env).Finishes i (fun _ => Exit i) (fun _ => Tidy i)
      (compensateSender env p ctx) w := by
  apply finishes_bind
  refine finishes_mono (finishes_move rfl hw) ?_ fun _ _ h => h.tidy
  rintro row w ⟨hcalm, hrow⟩
  exact finishes_runCompensationTransfer hrow hcalm

/-- So does undoing. -/
theorem finishes_undo {network : Network} {pid reason : String} (hw : Calm i w) :
    (sagaDiscipline env).Finishes i (fun _ => Exit i) (fun _ => Tidy i)
      (undo env network pid reason p) w := by
  unfold undo
  apply finishes_bind
  apply finishes_mono (finishes_calm (D := []) (does_plain rfl).ignoring (by simp) hw) _
    fun _ _ h => h.tidy
  intro _ w hcalm
  apply finishes_bind
  apply finishes_mono (finishes_calm (D := []) (does_readEscrow network) (by simp) hcalm) _
    fun _ _ h => h.tidy
  intro escrow w hcalm
  split
  · apply finishes_bind
    apply finishes_ofExcept
    · intro ctx _
      exact finishes_compensateSender hcalm
    · intro _ _
      exact hcalm.tidy
  · split
    · exact finishes_calm_exit (does_refundOrFail network pid reason p (List.Subset.refl _))
        (by decide) hcalm
    · exact finishes_calm_exit (does_endFailed p reason (List.mem_singleton_self _))
        (by decide) hcalm

/-- A payout whose hash is not written goes by its receipt. -/
theorem finishes_reconcileDestinationPayout {network : Network} {amount reason : String}
    (hw : Local i p hash w) :
    (sagaDiscipline env).Finishes i
      (fun (done : Option Payment) w => (done ≠ none ∧ Exit i w) ∨ (done = none ∧ Calm i w))
      (fun _ => Tidy i) (reconcileDestinationPayout p network amount reason) w := by
  have hst : (.payoutPending : PaymentStatus) ≠ .approved := by decide
  unfold reconcileDestinationPayout
  rw [hw.hash]
  apply finishes_bind
  apply finishes_mono (finishes_outcome hst hw.unwritten) _ fun _ _ h => h.elim
  intro outcome w h
  cases outcome with
  | confirmed =>
    apply finishes_bind
    refine finishes_mono (finishes_completeSettledPayout hw.status hw.hash h) ?_ fun _ _ h => h
    exact fun _ _ hexit => .inl ⟨Option.some_ne_none _, hexit⟩
  | reverted => exact .inr ⟨rfl, h.toCalm⟩
  | unknown =>
    apply finishes_bind
    refine finishes_mono (finishes_audit_open (unheld_congr hash) hst (missing_cons hash)
      (fun _ h => h.followed) _ _ _ h) ?_ fun _ _ h => h
    rintro _ w ⟨hstand, hunheld⟩
    refine .inl ⟨Option.some_ne_none _, fun hlater => .inr ⟨hstand.inside, hstand.status ▸ hst, ?_⟩⟩
    intro leg h' since hs
    rcases hstand.standing hlater leg h' since hs with hc | ⟨rfl, rfl, hk⟩
    · exact .closed hc
    · exact hk.resolved hunheld.row
  | absent => exact h.elim

/-- So does the recovery of an error the execution threw. -/
theorem finishes_recover {plan : Plan} {pid : String} {e : Err × Payment} (hw : Threw i e w) :
    (sagaDiscipline env).Finishes i (fun _ => Exit i) (fun _ => Tidy i)
      (recover env plan pid e) w := by
  have hst : (.payoutPending : PaymentStatus) ≠ .approved := by decide
  apply finishes_bind
  rcases hw with hcalm | ⟨hash, hlocal⟩
  · apply finishes_mono (finishes_calm (D := []) (does_plain rfl) (by simp) hcalm) _
      fun _ _ h => h.tidy
    intro credit w hcalm
    cases credit with
    | some credit =>
      exact finishes_calm_exit (does_completeSettledPayout _ _ _ _ (List.Subset.refl _))
        (by decide) hcalm
    | none =>
      apply finishes_bind
      apply finishes_mono (finishes_calm (does_reconcileDestinationPayout _ _ _ _
        (List.Subset.refl _)) (by decide) hcalm) _ fun _ _ h => h.tidy
      intro done w hcalm
      cases done with
      | some row => exact hcalm.tidy.exit
      | none => exact finishes_undo hcalm
  · refine finishes_mono (finishes_recorded (J := Missing hash) (unheld_congr hash) hst rfl
      (by simp [Stmt.perform]) rfl (by simp) ?_ (fun _ h => h.followed) hlocal.unwritten) ?_
      fun _ _ h => h
    · exact fun r since h => h.cons rfl rfl
    · rintro credit w ⟨hunwritten, c, s, he, hunheld⟩
      have hnone : credit = none := by
        rcases exec_eq_some he with ⟨⟨m, hm⟩, -⟩ | hperf
        · cases hm
        · simp only [Stmt.perform, hunheld.uncredited rfl, List.head?_nil, Option.some.injEq,
            Prod.mk.injEq, Except.ok.injEq] at hperf
          exact hperf.1.symm
      subst hnone
      apply finishes_bind
      refine finishes_mono (finishes_reconcileDestinationPayout
        ⟨hunwritten, hlocal.hash, hlocal.status⟩) ?_ fun _ _ h => h
      rintro done w (⟨hdone, hexit⟩ | ⟨rfl, hcalm⟩)
      · cases done with
        | none => exact absurd rfl hdone
        | some row => exact hexit
      · exact finishes_undo hcalm

/-! ## The leased sections -/

/-- Deeds of an execution before its `try`. -/
theorem finishes_runExecution {leaseId : ℕ} (hw : Calm i w) :
    (sagaDiscipline env).Finishes i (fun _ => Exit i) (fun _ => Tidy i)
      (runExecution env leaseId p) w := by
  have hcalm : ∀ {γ : Type} {D : List Deed} {q : Saga γ} {f : γ → Saga Payment} {w : World env},
      q.Uses (Within D) → (∀ d ∈ D, calmDeed d = true) →
      (∀ a w, Calm i w → (sagaDiscipline env).Finishes i (fun _ => Exit i) (fun _ => Tidy i)
        (f a) w) → Calm i w →
      (sagaDiscipline env).Finishes i (fun _ => Exit i) (fun _ => Tidy i) (q.bind f) w :=
    fun hq hds hf hw => finishes_bind (finishes_mono (finishes_calm hq hds hw) hf
      fun _ _ h => h.tidy)
  refine hcalm (D := []) (does_lift _) (by simp) (fun plan w hw => ?_) hw
  refine hcalm (D := []) (does_alignDestination _ _) (by simp) (fun row w hw => ?_) hw
  refine hcalm (does_autoRecall _ _ (List.mem_singleton_self _)) (by decide)
    (fun _ w hw => ?_) hw
  refine hcalm (does_checkLiquidity _ _ (List.mem_singleton_self _)) (by decide)
    (fun _ w hw => ?_) hw
  have hreserve : (reserveLiquidity leaseId row plan).Uses (Within [.reserve]) := by
    apply Prog.Uses.bind (does_call (within_deed rfl (List.mem_singleton_self _)))
    intro held
    split <;> trivial
  refine hcalm hreserve (by decide) (fun _ w hw => ?_) hw
  refine hcalm (does_setStatus _ _ _ (List.mem_singleton_self _) rfl) (by decide)
    (fun row w hw => ?_) hw
  refine hcalm (D := []) (does_lift _) (by simp) (fun decimals w hw => ?_) hw
  refine hcalm (D := []) (does_lift _) (by simp) (fun units w hw => ?_) hw
  exact finishes_handle (finishes_mono (finishes_settle hw) (fun _ _ h => h.tidy.exit)
    fun _ _ h => finishes_recover h)

/-- Each transfer of the attempt is resolved, provided no database statement failed later on. -/
def Done (i : ℕ) (w : World env) : Prop :=
  LaterSucceed (trail i w.history) → ∀ leg hash since,
    Since (trail i w.history) leg hash since → Resolved leg hash since w.state.payment

/-- With nothing open the attempt is done. -/
theorem Tidy.done (h : Tidy i w) : Done i w :=
  fun hlater leg hash since hs => .closed (h hlater leg hash since hs)

/-- Where a section has left its transfers survives what the others do. -/
theorem exit_survives : (sagaDiscipline env).Survives i (Exit i) := by
  intro w w' h hm hlater
  rw [hm.trail] at hlater ⊢
  refine (h hlater).imp id ?_
  rintro ⟨hin, hst, hres⟩
  have hframe := frame_of_meanwhile hm hin hst
  refine ⟨hm.rely.inside.trans hin, hframe.payment ▸ hst, ?_⟩
  rw [hframe.payment]
  exact hres

/-- Giving the lease back writes no hash. -/
theorem finishes_release {leaseId : ℕ} {X : Err → World env → Prop} (hw : Exit i w) :
    (sagaDiscipline env).Finishes i (fun (_ : Unit) => Done i) X
      (call (.releaseLease leaseId)).ignoring w := by
  have hstep : ∀ (w : World env) c (r : Except Err Unit) s, Exit i w →
      Stmt.exec (.releaseLease leaseId) c w.state = some (r, s) →
      Done i (⟨s, ⟨i, .releaseLease leaseId, r⟩ :: w.history⟩ : World env) := by
    intro w c r s hexit he
    unfold Done
    rw [trail_cons]
    intro hlater leg hash since hs
    obtain ⟨since', rfl, hs'⟩ := (since_cons_plain rfl).mp hs
    rcases hexit hlater.tail with hsealed | ⟨-, -, hres⟩
    · exact .closed (hsealed leg hash since' hs').cons
    · exact (hres leg hash since' hs').cons (hashOf_of_exec he leg) (fun _ => rfl) rfl
  apply finishes_ignoring
  exact finishes_call exit_survives hw (fun w c a s _ h he _ => hstep w c _ s h he)
    fun w c e s _ h he => hstep w c _ s h he

/-- A leased section. -/
theorem finishes_withExecutionLease {id : String} {leaseId : ℕ} {status : PaymentStatus}
    {fn : Saga α} (hfn : ∀ w : World env, CalmAt i status w →
      (sagaDiscipline env).Finishes i (fun _ => Exit i) (fun _ => Tidy i) fn w)
    (hw : Tidy i w) :
    (sagaDiscipline env).Finishes i (fun _ => Done i) (fun _ => Tidy i)
      (withExecutionLease id leaseId status fn) w := by
  unfold withExecutionLease
  apply finishes_bind
  refine finishes_mono (finishes_call (Q := fun claimed w => if claimed then CalmAt i status w
    else Tidy i w) (X := fun _ => Tidy i) tidy_survives hw ?_ ?_) ?_ fun _ _ h => h
  · intro w c claimed s _ htidy he _
    rcases exec_eq_some he with ⟨⟨m, hm⟩, -⟩ | hperf
    · cases hm
    · simp only [Stmt.perform] at hperf
      split at hperf <;> cases hperf
      · rename_i hrow _
        exact ⟨⟨htidy.cons rfl, inside_claim (e := ⟨i, .claimLease leaseId status, .ok true⟩) rfl⟩,
          hrow.1⟩
      · exact htidy.cons rfl
  · exact fun w c e s _ htidy _ => htidy.cons rfl
  · intro claimed w h
    cases claimed with
    | false => exact h
    | true =>
      apply finishes_andFinally
      apply finishes_mono (hfn w h)
      · exact fun _ w hexit => finishes_release hexit
      · intro _ w htidy
        exact finishes_mono (finishes_tidy (D := [.release])
          (does_call (within_deed rfl (List.mem_singleton_self _))).ignoring (by decide) htidy)
          (fun _ _ h => h) fun _ _ h => h

/-! ## The requests -/

/-- A program that broadcasts nothing leaves each transfer resolved. -/
theorem finishes_done {ε : Type} {D : List Deed} {q : Prog sagaEffects ε α}
    (hq : q.Uses (Within D)) (hds : ∀ d ∈ D, silentDeed d = true) (hw : Tidy i w) :
    (sagaDiscipline env).Finishes i (fun _ => Done i) (fun _ => Tidy i) q w :=
  finishes_mono (finishes_tidy hq hds hw) (fun _ _ h => h.done) fun _ _ h => h

/-- A program that broadcasts nothing, and then another one. -/
theorem finishes_tidy_then {D : List Deed} {q : Saga α} {f : α → Saga β}
    (hq : q.Uses (Within D)) (hds : ∀ d ∈ D, silentDeed d = true)
    (hf : ∀ a w, Tidy i w → (sagaDiscipline env).Finishes i (fun _ => Done i) (fun _ => Tidy i)
      (f a) w) (hw : Tidy i w) :
    (sagaDiscipline env).Finishes i (fun _ => Done i) (fun _ => Tidy i) (q.bind f) w :=
  finishes_bind (finishes_mono (finishes_tidy hq hds hw) hf fun _ _ h => h)

/-- An execution of an approved payment ends done, or throws with nothing open. -/
theorem finishes_executePayment {leaseId : ℕ} (hw : Tidy i w) :
    (sagaDiscipline env).Finishes i (fun _ => Done i) (fun _ => Tidy i)
      (executePayment env leaseId) w := by
  refine finishes_tidy_then (D := []) (does_plain rfl) (by simp) (fun p w hw => ?_) hw
  split
  · exact finishes_withExecutionLease (fun _ h => finishes_runExecution h.toCalm) hw
  · exact hw

/-- So does an execution. -/
theorem finishes_runExecute {leaseId : ℕ} {actor : String} {routeId : Option String}
    (hw : Tidy i w) :
    (sagaDiscipline env).Finishes i (fun _ => Done i) (fun _ => Tidy i)
      (runExecute env leaseId actor routeId) w := by
  have happroved : ∀ w : World env, Tidy i w →
      (sagaDiscipline env).Finishes i (fun _ => Done i) (fun _ => Tidy i)
        (executeApproved env leaseId) w := fun w hw =>
    finishes_handle (finishes_mono (finishes_executePayment hw) (fun _ _ h => h) fun e _ h =>
      finishes_done (D := []) (Prog.Uses.bind (does_plain rfl) fun _ => trivial) (by simp) h)
  refine finishes_tidy_then (D := []) (does_plain rfl) (by simp) (fun p w hw => ?_) hw
  refine finishes_tidy_then (D := []) (does_lift _) (by simp) (fun _ w hw => ?_) hw
  apply finishes_bind
  refine finishes_ofExcept (fun selection hselection => ?_) fun _ _ => hw
  have hs := routeSelection_status hselection
  split
  · refine finishes_tidy_then (does_complianceGate actor p hs (List.Subset.refl _))
      (by decide) (fun p w hw => ?_) hw
    split
    · exact happroved w hw
    · exact hw.done
  · split
    · exact happroved w hw
    · exact hw

/-- Reading the escrow, calm at a status. -/
theorem finishes_readEscrow_calm {status : PaymentStatus} (hst : status ≠ .approved)
    {network : Network} (hw : CalmAt i status w) :
    (sagaDiscipline env).Finishes i (fun _ => CalmAt i status) (fun (_ : Err) _ => False)
      (readEscrow env network) w := by
  apply finishes_handle
  apply finishes_bind
  refine finishes_ofExcept (fun _ _ => ?_) fun _ _ => hw
  exact finishes_bind (finishes_calmAt hst rfl (by simp) hw)

/-- A repair that holds the lease leaves its transfers accounted for. -/
theorem finishes_repairLeased {leaseId : ℕ} (hp : p.status = .compensationPending)
    (hw : CalmAt i .compensationPending w) :
    (sagaDiscipline env).Finishes i (fun _ => Exit i) (fun _ => Tidy i)
      (repairLeased env leaseId p) w := by
  unfold repairLeased
  apply finishes_bind
  refine finishes_ofExcept (fun ctx _ => ?_) fun _ _ => hw.tidy
  apply finishes_bind
  have hrefuse : (sagaDiscipline env).Finishes i (fun _ => CalmAt i .compensationPending)
      (fun _ => Tidy i) (refusePaidRecipient p) w := by
    unfold refusePaidRecipient
    split
    · exact hw
    · apply finishes_bind
      refine finishes_mono (finishes_outcome_calm pending_ne_approved hw) ?_ fun _ _ h => h.elim
      intro outcome w h
      cases outcome with
      | confirmed => exact h.tidy
      | unknown => exact h.tidy
      | reverted => exact h
      | absent => exact h
  refine finishes_mono hrefuse (fun _ w hw => ?_) fun _ _ h => h
  apply finishes_bind
  refine finishes_mono (finishes_readEscrow_calm pending_ne_approved hw) ?_ fun _ _ h => h.elim
  intro escrow w hw
  cases escrow with
  | none => exact hw.tidy
  | some state =>
    by_cases hsettled : state = .settled
    · simp only [if_pos hsettled]
      exact finishes_runCompensationTransfer (p := { p with executionLeaseId := some leaseId })
        hp hw
    · simp only [if_neg hsettled]
      exact hw.tidy

/-- A repair ends done, or throws with nothing open. -/
theorem finishes_repairCompensation {leaseId : ℕ} (hw : Tidy i w) :
    (sagaDiscipline env).Finishes i (fun _ => Done i) (fun _ => Tidy i)
      (repairCompensation env leaseId) w := by
  refine finishes_tidy_then (D := []) (does_plain rfl) (by simp) (fun p w hw => ?_) hw
  split
  · exact hw.done
  · split
    · rename_i hp
      exact finishes_withExecutionLease (fun w h => finishes_repairLeased hp h) hw
    · exact hw

/-- **However a request ends, each transfer it broadcast is resolved.** -/
theorem finishes_program {r : Request} (hw : Tidy i w) :
    (sagaDiscipline env).Finishes i (fun _ => Done i) (fun _ => Tidy i) (r.program env i) w := by
  cases r with
  | execute actor routeId => exact finishes_bind (finishes_runExecute hw)
  | repair => exact finishes_bind (finishes_repairCompensation hw)
  | cancel actor =>
    exact finishes_bind (finishes_done (does_cancelPayment actor (List.mem_singleton_self _))
      (by decide) hw)
  | review actor approve note =>
    exact finishes_bind (finishes_done (does_reviewPayment actor approve note
      (List.Subset.refl _)) (by decide) hw)
  | quote actor =>
    exact finishes_bind (finishes_done (does_quotePayment actor (List.mem_singleton_self _))
      (by decide) hw)
  | reconcile =>
    exact finishes_bind (finishes_done (does_reconcileUnresolvedPayment i (List.Subset.refl _))
      (by decide) hw)

end SettlementOS.Analysis
