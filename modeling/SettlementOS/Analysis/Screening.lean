import SettlementOS.Analysis.Deeds
import SettlementOS.Computation.Trails

/-!
# Who screens, and who clears

Only the compliance gate of an execution asks the vendors and stores what they answer, each once
and after it has taken the payment out of `QUOTED` itself. A payment is moved to `APPROVED` by a
gate that has stored a screening that approves, or by an approving review of a payment at
`MANUAL_REVIEW`; and to `MANUAL_REVIEW` by a gate whose screening asks for one.
-/

set_option autoImplicit false

namespace SettlementOS.Analysis

open SettlementOS.Computation Model Program Law

variable {env : Env} {request : Request} {p : Payment} {past : List (Event sagaEffects)}
  {α : Type}

/-! ## The law -/

/-- The payment was taken out of `QUOTED`. -/
def exits : Event sagaEffects → Bool
  | ⟨.transition .quoted .compliancePending _, .ok (some _)⟩ => true
  | _ => false

/-- The vendors were asked. -/
def screens : Event sagaEffects → Bool
  | ⟨.screen .., _⟩ => true
  | _ => false

/-- A screening was stored, or was tried to be. -/
def stores : Event sagaEffects → Bool
  | ⟨.createComplianceChecks _, _⟩ => true
  | _ => false

/-- The screening that was stored. -/
def persisted : Event sagaEffects → Option (List ComplianceCheck)
  | ⟨.createComplianceChecks checks, .ok _⟩ => some checks
  | _ => none

/-- A screening with this outcome is on the trail. -/
def Concluded (past : List (Event sagaEffects)) (overall : ComplianceOverall) : Prop :=
  ∃ x ∈ past, ∃ checks, persisted x = some checks ∧ complianceOverall checks = overall

/-- What an approving review writes. -/
def reviewOpts (actor note : String) : TransitionOpts where
  detail := [("note", .str note)]
  action := some "payment.review.approved"
  actor := some actor

/-- What a status change is founded on. -/
def Founded (request : Request) (past : List (Event sagaEffects)) (status : PaymentStatus)
    (opts : TransitionOpts) : PaymentStatus → Prop
  | .compliancePending => ∃ actor routeId, request = .execute actor routeId
  | .manualReview => Concluded past .manualReview
  | .approved => (Concluded past .approved ∧ opts.action = none) ∨
      (status = .manualReview ∧
        ∃ actor note, request = .review actor true note ∧ opts = reviewOpts actor note)
  | _ => True

/-- The row a status change answers has the new status. -/
def AnswersRow : (o : Stmt) → Except Err o.Result → Prop
  | .transition _ next opts, .ok (some row) => opts.data.status = none → row.status = next
  | _, _ => True

/-- Screenings and status changes are founded. -/
def clears (request : Request) : Law sagaEffects where
  Answers := AnswersRow
  Allows past e :=
    match e with
    | ⟨.screen .., _⟩ => (∃ x ∈ past, exits x = true) ∧ ∀ x ∈ past, screens x = false
    | ⟨.createComplianceChecks checks, _⟩ =>
      (∃ x ∈ past, exits x = true) ∧ (∀ x ∈ past, stores x = false) ∧
        checks.map ComplianceCheck.checkType = checkTypes
    | ⟨.transition status next opts, _⟩ =>
      canTransition status next = true ∧ opts.data.status = none ∧
        Founded request past status opts next
    | ⟨.updatePayment data, _⟩ => data.status = none
    | _ => True

/-! ## Programs that clear nothing -/

/-- A deed that neither screens nor clears. -/
def clearless : Deed → Bool
  | .screen | .amend => false
  | .move s => s ≠ .compliancePending && s ≠ .manualReview && s ≠ .approved
  | _ => true

/-- Every status but these three is founded on nothing. -/
theorem founded_of_clearless {status next : PaymentStatus} {opts : TransitionOpts}
    (h : clearless (.move next) = true) : Founded request past status opts next := by
  cases next with
  | compliancePending | manualReview | approved => exact absurd h (by decide)
  | _ => trivial

/-- Deeds that clear nothing are allowed. -/
theorem clears_of_within {ds : List Deed} {o : Stmt} (ho : Within ds o)
    (hds : ∀ d ∈ ds, clearless d = true) (r : Except Err o.Result) :
    (clears request).Allows past ⟨o, r⟩ := by
  have hdeed : ∀ d, deedOf o = some d → clearless d = true := fun d hd => hds d (ho d hd)
  cases o with
  | screen a b => exact absurd (hdeed .screen rfl) (by decide)
  | createComplianceChecks checks => exact absurd (hdeed .screen rfl) (by decide)
  | updatePayment data =>
    by_cases hplain : (data.status.isNone && data.destinationAmount.isNone) = true
    · rw [Bool.and_eq_true, Option.isNone_iff_eq_none] at hplain
      exact hplain.1
    · exact absurd (hdeed .amend (if_neg hplain)) (by decide)
  | transition status next opts =>
    by_cases hlegal : (canTransition status next && opts.data.status.isNone) = true
    · have hmove := hdeed (.move next) (if_pos hlegal)
      rw [Bool.and_eq_true, Option.isNone_iff_eq_none] at hlegal
      exact ⟨hlegal.1, hlegal.2, founded_of_clearless hmove⟩
    · exact absurd (hdeed .amend (if_neg hlegal)) (by decide)
  | _ => trivial

/-- A program that clears nothing keeps the law. -/
theorem keeps_clearless {ε : Type} {D : List Deed} {prog : Prog sagaEffects ε α}
    (h : prog.Uses (Within D)) (hD : ∀ d ∈ D, clearless d = true) :
    (clears request).Keeps (fun _ _ => True) (fun _ _ => True) prog past :=
  keeps_of_uses (P := fun _ => True)
    (fun _ _ r ho _ _ => ⟨clears_of_within ho hD r, trivial⟩) h trivial

/-- What clears nothing leaves a trail without a screening. -/
def Unscreened (past : List (Event sagaEffects)) : Prop :=
  ∀ x ∈ past, screens x = false ∧ stores x = false

/-- Another statement that neither screens nor stores leaves it unscreened. -/
theorem Unscreened.cons {x : Event sagaEffects} (h : Unscreened past) (hs : screens x = false)
    (ht : stores x = false) : Unscreened (x :: past) := by
  intro y hy
  rcases List.mem_cons.mp hy with rfl | hy
  · exact ⟨hs, ht⟩
  · exact h y hy

/-! ## The compliance gate -/

/-- A statement that is allowed whatever it is answered. -/
theorem keeps_allowed {o : Stmt} (h : ∀ r, (clears request).Allows past ⟨o, r⟩) :
    (clears request).Keeps (fun a past' => past' = ⟨o, .ok a⟩ :: past) (fun _ _ => True) (call o)
      past := by
  intro r _
  refine ⟨h r, ?_⟩
  cases r with
  | ok a => exact (rfl : _ = _)
  | error e => trivial

/-- A status change that is founded. -/
theorem keeps_founded {next : PaymentStatus} {opts : TransitionOpts}
    (hs : opts.data.status = none) (hF : Founded request past p.status opts next) :
    (clears request).Keeps
      (fun row past' => row.status = next ∧
        past' = ⟨.transition p.status next opts, .ok (some row)⟩ :: past)
      (fun _ _ => True) (transitionStatus p next opts) past := by
  unfold transitionStatus
  split
  · rename_i hcan
    intro r hr
    refine ⟨⟨hcan, hs, hF⟩, ?_⟩
    cases r with
    | error e => trivial
    | ok row =>
      cases row with
      | none => trivial
      | some row => exact ⟨hr hs, rfl⟩
  · trivial

/-- A screening, after the exit. -/
theorem keeps_runComplianceChecks (hexit : ∃ x ∈ past, exits x = true)
    (hnone : Unscreened past) :
    (clears request).Keeps (fun overall past' => Concluded past' overall) (fun _ _ => True)
      (runComplianceChecks env) past := by
  obtain ⟨x, hx, hexits⟩ := hexit
  apply keeps_bind
  refine keeps_mono (keeps_allowed fun _ => trivial) ?_ fun _ _ _ => trivial
  rintro payment _ rfl
  have hread : Unscreened (⟨.findPayment, .ok payment⟩ :: past) := hnone.cons rfl rfl
  apply keeps_bind
  refine keeps_mono (keeps_allowed fun _ =>
    ⟨⟨x, List.mem_cons_of_mem _ hx, hexits⟩, fun y hy => (hread y hy).1⟩) ?_ fun _ _ _ => trivial
  rintro answers _ rfl
  apply keeps_bind
  refine keeps_ofExcept (fun checks hchecks => ?_) fun _ _ => trivial
  apply keeps_bind
  refine keeps_mono (keeps_allowed fun _ =>
    ⟨⟨x, List.mem_cons_of_mem _ (List.mem_cons_of_mem _ hx), hexits⟩, ?_,
      checkTypes_of_screening hchecks⟩) ?_ fun _ _ _ => trivial
  · intro y hy
    rcases List.mem_cons.mp hy with rfl | hy
    · rfl
    · exact (hread y hy).2
  · rintro _ _ rfl
    exact ⟨_, List.mem_cons_self, checks, rfl, rfl⟩

/-- The gate keeps the law, for a request that executes. -/
theorem keeps_complianceGate {actor : String} {selection : PaymentPatch}
    (hrequest : ∃ actor routeId, request = .execute actor routeId) (hp : p.status = .quoted)
    (hs : selection.status = none) (hnone : Unscreened past) :
    (clears request).Keeps (fun _ _ => True) (fun _ _ => True)
      (complianceGate env actor p selection) past := by
  apply keeps_bind
  refine keeps_mono (keeps_founded hs hrequest) ?_ fun _ _ _ => trivial
  rintro row _ ⟨-, rfl⟩
  rw [hp]
  apply keeps_bind
  refine keeps_mono (keeps_runComplianceChecks ⟨_, List.mem_cons_self, rfl⟩
    (hnone.cons rfl rfl)) ?_ fun _ _ _ => trivial
  intro overall past' hconcluded
  have hmove : ∀ {next : PaymentStatus} {opts : TransitionOpts}, opts.data.status = none →
      Founded request past' row.status opts next →
      (clears request).Keeps (fun _ _ => True) (fun _ _ => True)
        (transitionStatus row next opts) past' := fun hd hF =>
    keeps_mono (keeps_founded hd hF) (fun _ _ _ => trivial) fun _ _ _ => trivial
  cases overall with
  | rejected => exact hmove rfl trivial
  | manualReview => exact hmove rfl hconcluded
  | approved => exact hmove rfl (.inl ⟨hconcluded, rfl⟩)

/-! ## The requests -/

/-- An execution keeps the law. -/
theorem keeps_runExecute_clears {leaseId : ℕ} {actor : String} {routeId : Option String} :
    (clears (.execute actor routeId)).Keeps (fun _ _ => True) (fun _ _ => True)
      (runExecute env leaseId actor routeId) [] := by
  have hsettle : ∀ past, (clears (.execute actor routeId)).Keeps (fun _ _ => True)
      (fun _ _ => True) (executeApproved env leaseId) past := fun past =>
    keeps_clearless (does_executeApproved leaseId (List.Subset.refl _)) (by decide)
  apply keeps_bind
  refine keeps_mono (keeps_allowed fun _ => trivial) ?_ fun _ _ _ => trivial
  rintro payment _ rfl
  apply keeps_bind
  refine keeps_ofExcept (fun _ _ => ?_) fun _ _ => trivial
  apply keeps_bind
  refine keeps_ofExcept (fun selection hselection => ?_) fun _ _ => trivial
  split
  · rename_i hquoted
    apply keeps_bind
    refine keeps_mono (keeps_complianceGate ⟨_, _, rfl⟩ hquoted (routeSelection_status hselection)
      (by simp [Unscreened, screens, stores])) (fun row past _ => ?_) fun _ _ _ => trivial
    split
    · exact hsettle _
    · trivial
  · split
    · exact hsettle _
    · trivial

/-- A review. -/
theorem keeps_reviewPayment {actor note : String} {approve : Bool} :
    (clears (.review actor approve note)).Keeps (fun _ _ => True) (fun _ _ => True)
      (reviewPayment actor approve note) past := by
  apply keeps_bind
  refine keeps_mono (keeps_allowed fun _ => trivial) ?_ fun _ _ _ => trivial
  rintro payment _ rfl
  split
  · rename_i hstatus
    cases approve with
    | false =>
      exact keeps_mono (keeps_founded rfl trivial) (fun _ _ _ => trivial) fun _ _ _ => trivial
    | true =>
      exact keeps_mono (keeps_founded rfl (.inr ⟨hstatus, actor, note, rfl, rfl⟩))
        (fun _ _ _ => trivial) fun _ _ _ => trivial
  · trivial

/-- Every request keeps the law. -/
theorem request_clears (i : ℕ) (request : Request) :
    (clears request).Keeps (fun _ _ => True) (fun _ _ => True) (request.program env i) [] := by
  cases request with
  | execute actor routeId => exact keeps_bind_of_forall keeps_runExecute_clears fun _ _ => trivial
  | review actor approve note =>
    exact keeps_bind_of_forall keeps_reviewPayment fun _ _ => trivial
  | cancel actor =>
    exact keeps_clearless (Prog.Uses.bind (does_cancelPayment actor
      (List.mem_singleton_self _)) fun _ => trivial) (by decide)
  | quote actor =>
    exact keeps_clearless (Prog.Uses.bind (does_quotePayment actor
      (List.mem_singleton_self _)) fun _ => trivial) (by decide)
  | repair =>
    exact keeps_clearless (Prog.Uses.bind (does_repairCompensation i
      (List.Subset.refl _)) fun _ => trivial) (by decide)
  | reconcile =>
    exact keeps_clearless (Prog.Uses.bind (does_reconcileUnresolvedPayment i
      (List.Subset.refl _)) fun _ => trivial) (by decide)

end SettlementOS.Analysis
