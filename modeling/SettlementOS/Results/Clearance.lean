import SettlementOS.Analysis.Clearance
import SettlementOS.Program.Routes
import SettlementOS.Results.Terminal

/-!
# No payment slips past its clearance

Behind the routes of a payment, whatever calls arrive and however their requests interleave: a
payment at `APPROVED` or any status after it was screened in full, nothing failed, and where the
screening asked for a review somebody with the role for it approved afterwards.
-/

set_option autoImplicit false

namespace SettlementOS.Results

open SettlementOS.Computation Service Model Program Analysis

variable {env : Env} {new : NewPayment}

/-- Some run of calls on the newly created payment leads to the desk. -/
def DeskReachable (env : Env) (new : NewPayment) (d : Desk env) : Prop :=
  (Desk.start (State.created new) : Desk env).Reaches (grant env) d

/-! ## Statement -/

/-- An approving review, made by a call with the role for it, and the event it wrote. -/
structure ApprovingReview (d : Desk env) (e : Entry sagaEffects) (call : ApiCall)
    (note : String) : Prop where
  made : d.calls[e.tid]? = some call
  role : call.principal.role ∈ [Role.reviewer, .operator]
  performed : ∃ row, eventOf e = ⟨.transition .manualReview .approved
    (reviewOpts (actorOf call.principal) note), .ok (some row)⟩
  logged : transitionRecord d.config.world.state.payment.id .manualReview .approved
    (reviewOpts (actorOf call.principal) note) ∈ d.config.world.state.auditEvents

/-- A complete screening without a failure, stored before `later` happened; and unless it asks
for no review, there is an approving one among what happened later. -/
structure Screened (d : Desk env) (later : History) (checks : List ComplianceCheck) : Prop where
  stored : ∃ e past, d.config.world.history = later ++ e :: past ∧
    persisted (eventOf e) = some checks
  rows : d.config.world.state.complianceChecks = checks
  complete : checks.map ComplianceCheck.checkType = checkTypes
  noFail : ∀ check ∈ checks, check.status ≠ .fail
  reviewed : (∀ check ∈ checks, check.status ≠ .manualReview) ∨
    ∃ e ∈ later, ∃ call note, ApprovingReview d e call note

/-- The payment has been cleared. -/
def HasClearance (d : Desk env) : Prop := ∃ later checks, Screened d later checks

/-- The exits from `QUOTED`, and the screenings. -/
structure OneScreening (d : Desk env) : Prop where
  oneExit : (d.config.world.history.countP fun e => exits (eventOf e)) ≤ 1
  screenings : (d.config.world.history.countP fun e => screens (eventOf e)) ≤
    d.config.world.history.countP fun e => exits (eventOf e)
  owned : ∀ e ∈ d.config.world.history, screens (eventOf e) = true →
    (∃ call routeId, d.calls[e.tid]? = some call ∧ call.route = .execute routeId) ∧
      ∃ x ∈ d.config.world.history, x.tid = e.tid ∧ exits (eventOf x) = true

/-! ## Proof -/

/-- The run behind the routes, as a run of the payment's service. -/
theorem DeskReachable.reachable {d : Desk env} (h : DeskReachable env new d) :
    Reachable env new d.config := h.sound.1

/-- Who made the request that performed an entry, and what its law allowed. -/
theorem DeskReachable.behind {d : Desk env} (h : DeskReachable env new d) {later past : History}
    {e : Entry sagaEffects} (he : d.config.world.history = later ++ e :: past) :
    ∃ call request, d.calls[e.tid]? = some call ∧ grant env call = some request ∧
      (clears request).Allows (trail e.tid past) (eventOf e) := by
  obtain ⟨t, ht, hallows⟩ := (clears_lawful h.reachable).allows he
  obtain ⟨call, hcall, hadmit⟩ := h.sound.2.admitted e.tid t ht
  exact ⟨call, t.request, hcall, hadmit, hallows⟩

/-- An approving review was made by a reviewer or an operator. -/
theorem DeskReachable.review {d : Desk env} (h : DeskReachable env new d)
    {e : Entry sagaEffects} (he : e ∈ d.config.world.history)
    (hreview : Approves d.config.world.state.auditEvents d.config.world.state.payment.id e) :
    ∃ call note, ApprovingReview d e call note := by
  obtain ⟨actor, note, row, heq, hlogged⟩ := hreview
  obtain ⟨later, past, hhistory⟩ := List.append_of_mem he
  obtain ⟨call, request, hcall, hadmit, hallows⟩ := h.behind hhistory
  rw [heq] at hallows
  rcases hallows.2.2 with ⟨-, hgate⟩ | ⟨-, actor', note', rfl, hopts⟩
  · -- a gate's approval is no review
    cases hgate
  · obtain ⟨hrole, rfl⟩ := role_of_review hadmit
    have hactor : actor = actorOf call.principal :=
      Option.some.inj (congrArg TransitionOpts.actor hopts)
    subst hactor
    exact ⟨call, note, hcall, hrole, ⟨row, heq⟩, hlogged⟩

/-- A payment that is cleared has its clearance, behind the routes as well. -/
theorem DeskReachable.cleared {d : Desk env} (h : DeskReachable env new d)
    (hs : d.config.world.state.payment.status ∈ clearedStates) : HasClearance d := by
  have hgate := gate h.reachable
  obtain ⟨later, e, past, checks, hhistory, hstored, hoverall⟩ := hgate.cleared hs
  have hmem : e ∈ d.config.world.history :=
    hhistory ▸ List.mem_append_right _ List.mem_cons_self
  obtain ⟨hrows, hcomplete⟩ := hgate.stored e hmem checks hstored
  have hnot : complianceOverall checks ≠ .rejected := by
    rcases hoverall with hoverall | ⟨hoverall, -⟩ <;> rw [hoverall] <;> decide
  refine ⟨later, checks, ⟨e, past, hhistory, hstored⟩, hrows, hcomplete,
    no_fail_of_overall hnot, ?_⟩
  rcases hoverall with happroved | ⟨-, e', he', hreview⟩
  · exact .inl (no_review_of_approved happroved)
  · have hmem' : e' ∈ d.config.world.history := hhistory ▸ List.mem_append_left _ he'
    exact .inr ⟨e', he', h.review hmem' hreview⟩

/-- An initiation is sent for a cleared payment only. -/
theorem cleared_of_sent {c : Config env} (h : Reachable env new c) {hash : Hash}
    (hs : Sent c.world.state .initiate hash) :
    c.world.state.payment.status ∈ clearedStates := by
  have hkind := h.inv.truth.kinds .initiate hash hs
  revert hkind
  generalize c.world.state.payment.status = status
  cases status <;> decide

/-- There is at most one screening, behind the routes as well. -/
theorem DeskReachable.oneScreening {d : Desk env} (h : DeskReachable env new d) :
    OneScreening d where
  oneExit := (gate h.reachable).oneExit
  screenings := (gate h.reachable).oneScreening
  owned := by
    intro e he hs
    obtain ⟨x, hx, htid, hexits⟩ := (gate h.reachable).owned e he (.inl hs)
    refine ⟨?_, x, hx, htid, hexits⟩
    obtain ⟨later, past, hhistory⟩ := List.append_of_mem hx
    obtain ⟨call, request, hcall, hadmit, hallows⟩ := h.behind hhistory
    obtain ⟨actor, routeId, rfl⟩ := execute_of_exits hallows hexits
    obtain ⟨routeId, hroute⟩ := route_of_execute hadmit
    exact ⟨call, routeId, htid ▸ hcall, hroute⟩

/-- **No payment slips past its clearance.** In every state reached behind the routes, a payment
at `APPROVED` or any later status of the saga, and so every payment whose escrow may have been
initiated, has its clearance; and of the executions of a payment one at most screens it. -/
theorem cleared_before_settlement {d : Desk env} (h : DeskReachable env new d) :
    (d.config.world.state.payment.status ∈ clearedStates → HasClearance d) ∧
      (∀ hash, Sent d.config.world.state .initiate hash → HasClearance d) ∧ OneScreening d :=
  ⟨h.cleared, fun _ hs => h.cleared (cleared_of_sent h.reachable hs), h.oneScreening⟩

/-- The operator of the sample, and a reviewer. -/
def sampleOperator : Principal := { keyId := "k0", role := .operator, label := "ops" }

/-- A reviewer for the sample. -/
def sampleReviewer : Principal := { keyId := "k1", role := .reviewer, label := "risk" }

/-- A move of the sample behind its routes. -/
abbrev SampleMove := DeskMove (sagaService sampleEnv) ApiCall

/-- Statement after statement of request `i`; the vendors, when asked, want a review. -/
def flaggedSteps (i n : ℕ) : List SampleMove :=
  List.replicate n (.perform i
    { treasury := ⟨10 ^ 12, 0, 10 ^ 12⟩
      screening := { sanctions := ⟨"mock_sanctions", .manualReview, 70, ["name_similarity"]⟩ } })

/-- The sample payment is quoted and executed, and a reviewer approves what was flagged. -/
def reviewedRun : List SampleMove :=
  .arrive ⟨sampleOperator, .quote⟩ :: flaggedSteps 0 5 ++
    .arrive ⟨sampleOperator, .execute none⟩ :: flaggedSteps 1 6 ++
    .arrive ⟨sampleReviewer, .review "approve" "known supplier"⟩ :: flaggedSteps 2 2

/-- The sample payment, approved by a review. -/
theorem cleared_before_settlement_reviewed : ∃ d : Desk sampleEnv,
    DeskReachable sampleEnv samplePayment d ∧ d.config.world.state.payment.status = .approved ∧
    HasClearance d := by
  have hrun : (((Desk.start (State.created samplePayment) : Desk sampleEnv).run (grant sampleEnv)
      reviewedRun).any fun d => d.config.world.state.payment.status == .approved) = true := by
    decide +kernel
  obtain ⟨d, hd, hs⟩ := (Option.any_eq_true _ _).mp hrun
  have happroved : d.config.world.state.payment.status = .approved := by simpa using hs
  have hreach : DeskReachable sampleEnv samplePayment d := ⟨reviewedRun, hd⟩
  exact ⟨d, hreach, happroved, (cleared_before_settlement hreach).1
    (by rw [happroved]; decide)⟩

end SettlementOS.Results
