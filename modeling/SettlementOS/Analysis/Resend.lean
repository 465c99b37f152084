import SettlementOS.Analysis.Confinement
import SettlementOS.Analysis.History
import SettlementOS.Computation.Discipline

/-!
# When a compensation is sent

An attempt that sends a compensation decides on a row it was given earlier: if the row
carries the hash of a previous attempt, the receipt of that one is read first, and it must
say that the transfer reverted. So much every run keeps (`Deciding`). Whether the row was
still the current one when the transfer went out is another matter, and nothing here says so.
-/

set_option autoImplicit false

namespace SettlementOS.Analysis

open SettlementOS.Computation Model Program Discipline

variable {env : Env}

/-! ## Readings of the history -/

/-- The hash of the compensation that was sent. -/
def compensationSent (e : Entry sagaEffects) : Option Hash :=
  (sends e).bind fun t => if t.2.1.kind = .compensation then some t.2.2 else none

/-- A row of the payment was given: the compensation hash it carries. -/
def givenHash : Entry sagaEffects → Option (Option Hash)
  | ⟨_, .findPayment, .ok row⟩ => some row.compensationTxHash
  | ⟨_, .updatePayment _, .ok row⟩ => some row.compensationTxHash
  | ⟨_, .transition .., .ok (some row)⟩ => some row.compensationTxHash
  | _ => none

/-- A receipt was read: of which transaction, and whether it says success. -/
def receiptRead : Entry sagaEffects → Option (Hash × Bool)
  | ⟨_, .getTransactionReceipt _ hash, .ok (some receipt)⟩ => some (hash, receipt.success)
  | ⟨_, .waitForTransactionReceipt _ hash, .ok receipt⟩ => some (hash, receipt.success)
  | _ => none

/-- The compensations sent, newest first. -/
def compensations (h : History) : List Hash := h.filterMap compensationSent

/-- The compensation hash on the row that attempt `i` was given last. -/
def decidedOn (i : ℕ) : History → Option Hash
  | [] => none
  | e :: h => if e.tid = i then (givenHash e).getD (decidedOn i h) else decidedOn i h

/-- Attempt `i` has read a receipt that says the transaction reverted. -/
def SawReverted (i : ℕ) (hash : Hash) (h : History) : Prop :=
  ∃ e ∈ h, e.tid = i ∧ receiptRead e = some (hash, false)

/-- Some attempt has read a receipt that says the transaction reverted. -/
def KnownReverted (hash : Hash) (h : History) : Prop :=
  ∃ e ∈ h, receiptRead e = some (hash, false)

/-- The row attempt `i` was given last carries no compensation, or one `i` saw reverted. -/
def Cleared (i : ℕ) (h : History) : Prop :=
  ∀ hash, decidedOn i h = some hash → SawReverted i hash h

/-- Every compensation was sent by an attempt that was cleared. -/
def Deciding : History → Prop
  | [] => True
  | e :: h => Deciding h ∧ (compensationSent e ≠ none → Cleared e.tid h)

/-- An entry of another attempt changes nothing of the row `i` was given. -/
theorem decidedOn_cons_ne {i : ℕ} {e : Entry sagaEffects} {h : History} (he : e.tid ≠ i) :
    decidedOn i (e :: h) = decidedOn i h := if_neg he

/-- An attempt that is given a row decides on it. -/
theorem decidedOn_given {e : Entry sagaEffects} {h : History} {x : Option Hash}
    (he : givenHash e = some x) : decidedOn e.tid (e :: h) = x := by
  simp [decidedOn, he]

/-- An entry that gives no row changes nobody's. -/
theorem decidedOn_cons {i : ℕ} {e : Entry sagaEffects} {h : History} (he : givenHash e = none) :
    decidedOn i (e :: h) = decidedOn i h := by
  simp [decidedOn, he]

/-- What attempt `i` has seen stays seen. -/
theorem SawReverted.cons {i : ℕ} {hash : Hash} {e : Entry sagaEffects} {h : History}
    (hs : SawReverted i hash h) : SawReverted i hash (e :: h) := by
  obtain ⟨e', he', hr⟩ := hs
  exact ⟨e', List.mem_cons_of_mem _ he', hr⟩

/-- What one attempt has seen is known. -/
theorem SawReverted.known {i : ℕ} {hash : Hash} {h : History} (hs : SawReverted i hash h) :
    KnownReverted hash h := by
  obtain ⟨e, he, -, hr⟩ := hs
  exact ⟨e, he, hr⟩

/-- What is known stays known. -/
theorem KnownReverted.cons {hash : Hash} {e : Entry sagaEffects} {h : History}
    (hk : KnownReverted hash h) : KnownReverted hash (e :: h) := by
  obtain ⟨e', he', hr⟩ := hk
  exact ⟨e', List.mem_cons_of_mem _ he', hr⟩

/-- Only a transfer adds to the compensations that were sent. -/
theorem compensations_cons_none {e : Entry sagaEffects} {h : History}
    (he : compensationSent e = none) : compensations (e :: h) = compensations h := by
  simp [compensations, he]

/-- A transfer adds its hash to them. -/
theorem compensations_cons_some {e : Entry sagaEffects} {h : History} {hash : Hash}
    (he : compensationSent e = some hash) : compensations (e :: h) = hash :: compensations h := by
  simp [compensations, he]

/-! ## The discipline -/

/-- Every compensation is sent by a cleared attempt, and nobody else's step changes the row an
attempt was given or what it has seen. -/
def resendDiscipline (env : Env) : Discipline (sagaService env) where
  Inv w := Deciding w.history
  Rely i w w' := decidedOn i w'.history = decidedOn i w.history ∧
    ∀ hash, SawReverted i hash w.history → SawReverted i hash w'.history
  Start _ _ := True
  refl _ _ := ⟨rfl, fun _ h => h⟩
  trans _ _ _ _ h h' := ⟨h'.1.trans h.1, fun hash hs => h'.2 hash (h.2 hash hs)⟩
  start_stable _ _ _ _ _ := trivial

variable {i : ℕ} {α : Type} {p : Payment} {ctx : CompensationContext} {w : World env}

/-- A program that ends somehow. -/
abbrev Ends (i : ℕ) {ε α : Type} (q : Prog sagaEffects ε α) (w : World env) : Prop :=
  (resendDiscipline env).Safe i (fun _ _ => True) (fun _ _ => True) q w

/-- Others do not change which row attempt `i` was given. -/
theorem decidedOn_stable (x : Option Hash) :
    (resendDiscipline env).Stable i fun w => decidedOn i w.history = x :=
  fun _ _ h _ hr => hr.1.trans h

/-- Others do not change whether it is cleared. -/
theorem cleared_stable : (resendDiscipline env).Stable i fun w => Cleared i w.history :=
  fun _ _ h _ hr hash hd => hr.2 hash (h hash (hr.1 ▸ hd))

/-- Any statement keeps the discipline, if its attempt is cleared when it sends a compensation. -/
theorem keeps_of_cleared {o : Stmt} {c : Choice} {r : Except Err o.Result} {w' : World env}
    (hinv : Deciding w.history)
    (ho : compensationSent ⟨i, o, r⟩ ≠ none → Cleared i w.history)
    (he : w.exec i o c = some (r, w')) : (resendDiscipline env).Keeps i w w' := by
  obtain ⟨s, -, rfl⟩ := Service.World.exec_eq_some.mp he
  refine ⟨⟨hinv, ho⟩, fun j hj => ⟨decidedOn_cons_ne (Ne.symm hj), fun hash hs => hs.cons⟩⟩

/-- A quiet statement sends no compensation. -/
theorem sendsNone_of_quiet {o : Stmt} (h : Quiet o) (r : Except Err o.Result) :
    compensationSent ⟨i, o, r⟩ = none := by
  cases o with
  | writeContract network c => cases r <;> simp_all [compensationSent, sends, Quiet]
  | claimLease _ _ => cases h
  | _ => rfl

/-- Quiet programs need no clearance. -/
theorem ends_of_quiet {ε : Type} {q : Prog sagaEffects ε α} (h : q.Uses Quiet) : Ends i q w :=
  safe_of_uses (P := fun _ => True) (Stable.const True) (fun _ ho _ hinv _ _ r _ he =>
    ⟨keeps_of_cleared hinv (fun hn => absurd (sendsNone_of_quiet ho r) hn) he, trivial⟩) h trivial

/-- A statement that sends no compensation, in a world with `P`. -/
theorem safe_sendsNone {o : Stmt} {P : World env → Prop} {Q : o.Result → World env → Prop}
    {X : Err → World env → Prop} (hst : (resendDiscipline env).Stable i P)
    (ho : ∀ r, compensationSent ⟨i, o, r⟩ = none) (hw : P w)
    (hQ : ∀ w c a s, P w → o.exec c w.state = some (.ok a, s) →
      Q a ⟨s, ⟨i, o, .ok a⟩ :: w.history⟩)
    (hX : ∀ w c e s, P w → o.exec c w.state = some (.error e, s) →
      X e ⟨s, ⟨i, o, .error e⟩ :: w.history⟩) :
    (resendDiscipline env).Safe i Q X (call o) w := by
  refine safe_perform (R := fun (r : Except Err o.Result) w => match r with
    | .ok a => Q a w
    | .error e => X e w) hst ?_ hw fun r w hr => ?_
  · intro w hinv hP c r w' he
    refine ⟨keeps_of_cleared hinv (fun hn => absurd (ho r) hn) he, ?_⟩
    obtain ⟨s, hs, rfl⟩ := Service.World.exec_eq_some.mp he
    cases r with
    | ok a => exact hQ w c a s hP hs
    | error e => exact hX w c e s hP hs
  · cases r <;> exact hr

/-- Reading the payment gives its row. -/
theorem findPayment_given : (resendDiscipline env).Safe i
    (fun row w => decidedOn i w.history = row.compensationTxHash) (fun _ _ => True)
    (call .findPayment) w :=
  safe_sendsNone (P := fun _ => True) (Stable.const True) (fun _ => rfl) trivial
    (fun _ _ _ _ _ _ => decidedOn_given rfl) fun _ _ _ _ _ _ => trivial

/-- A status change gives the row it wrote. -/
theorem transitionStatus_given {next : PaymentStatus} {opts : TransitionOpts} :
    (resendDiscipline env).Safe i
      (fun row w => decidedOn i w.history = row.compensationTxHash) (fun _ _ => True)
      (transitionStatus p next opts) w := by
  unfold transitionStatus
  split
  · refine safe_bind (safe_mono (safe_sendsNone (P := fun _ => True)
      (Q := fun row w => ∀ p, row = some p → decidedOn i w.history = p.compensationTxHash)
      (X := fun _ _ => True) (Stable.const True) (fun _ => rfl) trivial ?_
      fun _ _ _ _ _ _ => trivial) ?_ fun _ _ _ => trivial)
    · rintro w c _ s - - p rfl
      exact decidedOn_given rfl
    · intro row w hrow
      cases row with
      | none => trivial
      | some p => exact hrow p rfl
  · trivial

/-- A statement that neither gives a row nor sends anything. -/
def Mute : Stmt → Prop
  | .claimLease .. => True
  | .getTransactionReceipt .. => True
  | .getPayment .. => True
  | _ => False

/-- Mute programs do not change the row their attempt was given. -/
theorem given_of_mute {ε : Type} {q : Prog sagaEffects ε α} {x : Option Hash}
    (hq : q.Uses Mute) (hw : decidedOn i w.history = x) :
    (resendDiscipline env).Safe i (fun _ w => decidedOn i w.history = x)
      (fun _ w => decidedOn i w.history = x) q w := by
  refine safe_of_uses (decidedOn_stable x) (fun o ho w hinv hP c r w' he => ?_) hq hw
  have hnone : compensationSent ⟨i, o, r⟩ = none ∧ givenHash ⟨i, o, r⟩ = none := by
    cases o <;> first | exact ⟨rfl, rfl⟩ | cases ho
  refine ⟨keeps_of_cleared hinv (fun hn => absurd hnone.1 hn) he, ?_⟩
  obtain ⟨s, -, rfl⟩ := Service.World.exec_eq_some.mp he
  exact (decidedOn_cons hnone.2).trans hP

/-! ## The compensation -/

/-- A receipt that says the transaction reverted has been seen. -/
theorem transactionOutcome_seen {network : Network} {hash : Hash} {x : Option Hash}
    (hw : decidedOn i w.history = x) :
    (resendDiscipline env).Safe i
      (fun outcome w => decidedOn i w.history = x ∧ outcome ≠ .absent ∧
        (outcome = .reverted → SawReverted i hash w.history))
      (fun _ _ => False) (transactionOutcome network hash) w := by
  refine safe_handle (safe_bind (safe_sendsNone (decidedOn_stable x) (fun _ => rfl) hw ?_ ?_))
  · intro w c receipt s hP he
    refine ⟨?_, ?_, fun hr => ?_⟩
    · exact (decidedOn_cons rfl).trans hP
    · cases receipt with
      | none =>
        -- a node that has no receipt throws
        simp only [Stmt.exec, Stmt.perform] at he
        split at he
        · cases he
        · split at he <;> cases he
      | some receipt => cases hs : receipt.success <;> simp [outcomeOf, hs]
    · cases receipt with
      | none => cases hr
      | some receipt =>
        refine ⟨_, List.mem_cons_self, rfl, ?_⟩
        cases hs : receipt.success with
        | false => simp [receiptRead, hs]
        | true => simp [outcomeOf, hs] at hr
  · intro w c e s hP _
    exact ⟨(decidedOn_cons rfl).trans hP, by simp, fun hr => by cases hr⟩

/-- Sending a compensation, once cleared. -/
theorem sendCompensation_ends (hw : Cleared i w.history) :
    Ends i (sendCompensation env p ctx) w := by
  refine safe_bind (safe_keeping ?_)
  · refine safe_bind (safe_mono (safe_ofExcept (Q := fun _ w => Cleared i w.history)
      (X := fun _ _ => True) (fun _ _ => hw) fun _ _ => trivial) ?_ fun _ _ h => h)
    intro contracts w hw
    refine safe_bind (safe_mono (safe_ofExcept (Q := fun _ w => Cleared i w.history)
      (X := fun _ _ => True) (fun _ _ => hw) fun _ _ => trivial) ?_ fun _ _ h => h)
    intro token w hw
    refine safe_bind (safe_mono (safe_ofExcept (Q := fun _ w => Cleared i w.history)
      (X := fun _ _ => True) (fun _ _ => hw) fun _ _ => trivial) ?_ fun _ _ h => h)
    intro _ w hw
    refine safe_perform (R := fun _ _ => True) cleared_stable ?_ hw fun r w _ => ?_
    · exact fun w hinv hP c r w' he => ⟨keeps_of_cleared hinv (fun _ => hP) he, trivial⟩
    · refine safe_ofExcept (fun hash _ => ?_) fun _ _ => trivial
      exact ends_of_quiet (Prog.Uses.bind (uses_updatePayment _).keeping fun _ =>
        Prog.Uses.bind (uses_audit _ _ _).keeping fun _ =>
        Prog.Uses.bind (uses_confirm _ _).keeping fun _ =>
        Prog.Uses.bind (uses_audit _ _ _).keeping fun _ => (uses_transitionStatus _ _ _).keeping)

/-- A compensation is sent on the row its attempt was given last. -/
theorem runCompensationTransfer_ends (hw : decidedOn i w.history = p.compensationTxHash) :
    Ends i (runCompensationTransfer env p ctx) w := by
  have htransfer : ∀ w : World env, Cleared i w.history →
      Ends i ((sendCompensation env p ctx).handle (recoverCompensation ctx)) w := fun w hc =>
    safe_handle (safe_mono (sendCompensation_ends hc) (fun _ _ h => h) fun e _ _ =>
      ends_of_quiet (uses_recoverCompensation ctx e))
  unfold runCompensationTransfer
  split
  · rename_i hnone
    exact htransfer w fun hash hh => by simp [hw, hnone] at hh
  · rename_i hash hhash
    refine safe_bind (safe_mono (transactionOutcome_seen hw) ?_ fun _ _ hx => hx.elim)
    rintro outcome w ⟨hd, habsent, hseen⟩
    cases outcome with
    | confirmed => exact ends_of_quiet (uses_completeCompensationFromConfirmed _ _ _)
    | unknown => exact ends_of_quiet (Prog.Uses.bind (uses_audit _ _ _) fun _ => trivial)
    | reverted =>
      refine htransfer w fun hash' hh => ?_
      rw [hd, hhash, Option.some.injEq] at hh
      exact hh ▸ hseen rfl
    | absent => exact absurd rfl habsent

/-- Compensating a sender keeps the law, whatever was given before. -/
theorem compensateSender_ends : Ends i (compensateSender env p ctx) w :=
  safe_bind (safe_mono transitionStatus_given
    (fun _ _ h => runCompensationTransfer_ends h) fun _ _ h => h)

/-! ## The attempts -/

/-- What follows a quiet program need not know how it went. -/
theorem ends_bind {ε β : Type} {q : Prog sagaEffects ε α} {f : α → Prog sagaEffects ε β}
    (hq : Ends i q w) (hf : ∀ a (w : World env), Ends i (f a) w) : Ends i (q.bind f) w :=
  safe_bind (safe_mono hq (fun a w _ => hf a w) fun _ _ h => h)

/-- An outcome decides nothing. -/
theorem ends_lift_bind {β : Type} {x : Except Err α} {f : α → Saga β}
    (hf : ∀ a (w : World env), Ends i (f a) w) : Ends i ((lift x).bind f) w :=
  ends_bind (ends_of_quiet (uses_lift x)) hf

/-- Undoing keeps the law. -/
theorem undo_ends {network : Network} {pid reason : String} :
    Ends i (undo env network pid reason p) w := by
  refine ends_bind (ends_of_quiet (uses_updateReservation _).ignoring) fun _ w =>
    ends_bind (ends_of_quiet (uses_readEscrow _)) fun escrow w => ?_
  split
  · exact ends_lift_bind fun _ _ => compensateSender_ends
  · split
    · exact ends_of_quiet (uses_refundOrFail _ _ _ _)
    · exact ends_of_quiet (uses_endFailed _ _)

/-- The recovery keeps the law. -/
theorem recover_ends {plan : Plan} {pid : String} {e : Err × Payment} :
    Ends i (recover env plan pid e) w := by
  refine ends_bind (ends_of_quiet (uses_call trivial)) fun credit w => ?_
  split
  · exact ends_of_quiet (uses_completeSettledPayout _ _ _ _)
  · refine ends_bind (ends_of_quiet (uses_reconcileDestinationPayout _ _ _ _)) fun r w => ?_
    split
    · trivial
    · exact undo_ends

/-- The reservation keeps the law. -/
theorem reserveLiquidity_ends {leaseId : ℕ} {plan : Plan} :
    Ends i (reserveLiquidity leaseId p plan) w := by
  refine safe_bind (safe_mono (safe_sendsNone (P := fun _ => True) (Q := fun _ _ => True)
    (X := fun _ _ => True) (Stable.const True) (fun _ => rfl) trivial (fun _ _ _ _ _ _ => trivial)
    fun _ _ _ _ _ _ => trivial) (fun held w _ => ?_) fun _ _ h => h)
  split <;> trivial

/-- The execution proper keeps the law. -/
theorem runExecution_ends {leaseId : ℕ} : Ends i (runExecution env leaseId p) w := by
  refine ends_lift_bind fun plan w => ends_bind (ends_of_quiet (uses_alignDestination _ _))
    fun p w =>
    ends_bind (ends_of_quiet (uses_autoRecall _ _)) fun _ w =>
    ends_bind (ends_of_quiet (uses_checkLiquidity _ _)) fun _ w =>
    ends_bind reserveLiquidity_ends fun _ w =>
    ends_bind (ends_of_quiet (uses_setStatus _ _ _ _)) fun p w =>
    ends_lift_bind fun _ w => ends_lift_bind fun units w => ?_
  exact safe_handle (safe_mono (ends_of_quiet (uses_settle _ _ _ _)) (fun _ _ h => h)
    fun _ _ _ => recover_ends)

/-- A leased section goes on from the row its attempt was given. -/
theorem withExecutionLease_ends {id : String} {leaseId : ℕ} {status : PaymentStatus}
    {x : Option Hash} {fn : Saga α} (hw : decidedOn i w.history = x)
    (hfn : ∀ w : World env, decidedOn i w.history = x → Ends i fn w) :
    Ends i (withExecutionLease id leaseId status fn) w := by
  refine safe_bind
    (safe_mono (given_of_mute (x := x) (uses_call trivial) hw) ?_ fun _ _ _ => trivial)
  intro claimed w hw
  have hrelease : ∀ w : World env,
      Ends i ((call (.releaseLease leaseId)).ignoring : Saga Unit) w := fun w =>
    ends_of_quiet (Prog.Uses.ignoring (uses_call trivial))
  split
  · exact safe_andFinally (safe_mono (hfn w hw) (fun _ w _ => hrelease w) fun _ w _ => hrelease w)
  · trivial

/-- The execution of an approved payment keeps the law. -/
theorem executePayment_ends {leaseId : ℕ} : Ends i (executePayment env leaseId) w := by
  refine safe_bind (safe_mono findPayment_given ?_ fun _ _ h => h)
  intro p w hw
  split
  · exact withExecutionLease_ends hw fun _ _ => runExecution_ends
  · trivial

/-- A repair that holds the lease keeps the law, for the row it decides on. -/
theorem repairLeased_ends {leaseId : ℕ} (hw : decidedOn i w.history = p.compensationTxHash) :
    Ends i (repairLeased env leaseId p) w := by
  refine safe_bind (safe_ofExcept (fun ctx _ => ?_) fun _ _ => trivial)
  have hrefuse : (refusePaidRecipient p).Uses Mute := by
    unfold refusePaidRecipient
    split
    · trivial
    · refine Prog.Uses.bind (Prog.Uses.handle (Prog.Uses.bind (uses_call trivial)
        fun _ => trivial) fun _ => trivial) fun outcome => ?_
      split <;> trivial
  refine safe_bind (safe_mono (given_of_mute hrefuse hw) ?_ fun _ _ _ => trivial)
  intro _ w hw
  have hread : (readEscrow env ctx.network).Uses Mute :=
    Prog.Uses.handle (Prog.Uses.bind (uses_lift _) fun _ =>
      Prog.Uses.bind (uses_call trivial) fun _ => trivial) fun _ => trivial
  refine safe_bind (safe_mono (given_of_mute hread hw) ?_ fun _ _ _ => trivial)
  intro escrow w hw
  split
  · trivial
  · split
    · exact runCompensationTransfer_ends hw
    · trivial

/-- A repair keeps the law. -/
theorem repairCompensation_ends {leaseId : ℕ} : Ends i (repairCompensation env leaseId) w := by
  refine safe_bind (safe_mono findPayment_given ?_ fun _ _ h => h)
  intro p w hw
  split
  · trivial
  · split
    · exact withExecutionLease_ends hw fun _ => repairLeased_ends
    · trivial

/-- A reconcile keeps the law. -/
theorem reconcileUnresolvedPayment_ends {leaseId : ℕ} :
    Ends i (reconcileUnresolvedPayment env leaseId) w := by
  refine safe_bind (safe_mono findPayment_given ?_ fun _ _ h => h)
  intro p w hw
  dsimp only
  split
  · trivial
  · trivial
  · split
    · trivial
    · exact withExecutionLease_ends hw fun _ _ => ends_of_quiet (uses_reconcilePayout _ _)
  · split
    · trivial
    · exact withExecutionLease_ends hw fun _ _ => ends_of_quiet (uses_reconcileCompensation _ _)
  · trivial

/-- An execution keeps the law. -/
theorem runExecute_ends {leaseId : ℕ} {actor : String} {routeId : Option String} :
    Ends i (runExecute env leaseId actor routeId) w := by
  have happroved : ∀ w : World env, Ends i (executeApproved env leaseId) w := fun w =>
    safe_handle (safe_mono executePayment_ends (fun _ _ h => h) fun _ _ _ =>
      ends_of_quiet (Prog.Uses.bind (uses_call trivial) fun _ => trivial))
  refine ends_bind (ends_of_quiet (uses_call trivial)) fun p w =>
    ends_lift_bind fun _ w => ends_lift_bind fun selection w => ?_
  split
  · refine ends_bind (ends_of_quiet (uses_complianceGate _ _ _)) fun p w => ?_
    split
    · exact happroved w
    · trivial
  · split
    · exact happroved w
    · trivial

/-- Every request keeps the discipline. -/
theorem resend_holds (new : NewPayment) : (resendDiscipline env).Holds (State.created new)
    (fun _ _ _ _ => True) (fun _ _ _ _ => True) where
  inv := trivial
  start _ := trivial
  outside _ _ _ hinv _ := ⟨hinv, fun _ => ⟨rfl, fun _ h => h⟩⟩
  ret_stable _ _ _ := Stable.const True
  throw_stable _ _ _ := Stable.const True
  program r i w _ _ := by
    have hquiet : ∀ r : Request, r.isAttempt = false →
        (r.program env i).Uses Quiet := uses_request i
    cases r with
    | execute actor routeId => exact ends_bind runExecute_ends fun _ _ => trivial
    | repair => exact ends_bind repairCompensation_ends fun _ _ => trivial
    | reconcile => exact ends_bind reconcileUnresolvedPayment_ends fun _ _ => trivial
    | cancel actor => exact ends_of_quiet (hquiet (.cancel actor) rfl)
    | review actor approve note => exact ends_of_quiet (hquiet (.review actor approve note) rfl)
    | quote actor => exact ends_of_quiet (hquiet (.quote actor) rfl)

end SettlementOS.Analysis
