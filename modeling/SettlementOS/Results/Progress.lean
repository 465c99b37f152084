import SettlementOS.Analysis.Executing
import SettlementOS.Results.Amounts
import SettlementOS.Results.Compensation

/-!
# What a request brings about

The other results say what no run does. Here is what a request comes to when it is left to itself:
none of its statements fails, whatever it sends is accepted once it is mined, and the chains mine
what is pending in whatever order. However the payment got there, an execution then settles it, a
repair compensates its sender, and a reconcile brings a payout that was sent to its end. None of
them can go on forever.
-/

set_option autoImplicit false

namespace SettlementOS.Results

open SettlementOS.Computation Service Model Program Analysis

variable {env : Env} {new : NewPayment}

/-! ## A request left to itself -/

/-- Nothing fails. -/
def NoFailure (c : Choice) : Prop := c.fails = none

/-- Without a failure nothing fails. -/
theorem unfailing_noFailure : Unfailing NoFailure :=
  ⟨⟨{ treasury := ⟨0, 0, 0⟩ }, rfl⟩, fun _ hc => hc⟩

/-- The request, started now and left to itself, is inevitably answered, and as `P` says, if its
statements go as `G` says. -/
def BringsAbout (c : Config env) (G : Choice → Prop) (r : Request) (P : Reply → State → Prop) :
    Prop :=
  ∃ c', c.step (.start r) = some c' ∧
    c'.Inevitable (Lone c.threads.length G (Accepts c.world.state.txs.length))
      fun c'' => ∃ reply, c''.threads[c.threads.length]? = some ⟨r, .ret reply⟩ ∧
        P reply c''.world.state

/-- Where a payment stands, with its escrow and where nothing that is pending can move it. -/
def standing (s : State) (steady : List OnchainPaymentState) : View where
  payment := s.payment
  reservation := s.reservation
  credits := s.ledgerCredits
  escrow := s.escrow s.payment.sourceNetwork
  steady := steady

/-- A payment at rest stands where it is. -/
theorem stands_standing {s : State} {steady : List OnchainPaymentState}
    (hhere : s.escrow s.payment.sourceNetwork ∈ steady)
    (hcalm : ∀ tx ∈ s.txs, Inert steady s.payment.sourceNetwork tx.network tx.call.kind) :
    Stands s (standing s steady) s where
  payment := rfl
  reservation := rfl
  credits := rfl
  known _ _ _ hr := hr
  length := Nat.le_refl _
  sent _ ht := nomatch ht
  escrow := rfl
  here := hhere
  calm tx htx _ := hcalm tx htx

/-- What a released escrow admits does not touch it. -/
theorem calm_released (source network : Network) (k : CallKind) :
    Inert [.settled] source network k := by
  intro e he _ hadmitted
  rw [List.mem_singleton.mp he] at hadmitted ⊢
  cases k <;> first | rfl | cases hadmitted

/-- A program that leads somewhere from where the payment stands. -/
theorem bringsAbout_of_leads {c : Config env} {G : Choice → Prop} {r : Request}
    {P : Reply → State → Prop} {Q : Reply → View → Prop} {v : View} (hc : Reachable env new c)
    (hv : Stands c.world.state v c.world.state)
    (h : Leads env c.threads.length G c.world.state v Q (r.program env c.threads.length))
    (hQ : ∀ reply v s, Q reply v → Stands c.world.state v s → Truth s → P reply s) :
    BringsAbout c G r P := by
  have hreturns := h _ hv
  refine ⟨_, rfl, ?_⟩
  have hinevitable := hreturns.inevitable (S := sagaService env)
    (c := ⟨c.world, c.threads ++ [⟨r, r.program env c.threads.length⟩]⟩) (r := r)
    (by simp only [List.getElem?_append_right (Nat.le_refl _), Nat.sub_self,
      List.getElem?_cons_zero]) rfl
  refine (hinevitable.reaching (hc.tail (m := .start r) rfl)).mono ?_
  rintro c' ⟨⟨reply, hret, v, hreply, hs⟩, hc'⟩
  exact ⟨reply, hret, hQ reply v _ hreply hs (Reachable.inv hc').truth⟩

/-! ## Execution -/

/-- What an execution needs. -/
structure CanExecute (env : Env) (s : State) (plan : Plan) (units : ℕ) : Prop where
  status : s.payment.status = .approved
  unleased : s.payment.executionLeaseId = none
  /-- the row's amount is one the execute route accepts -/
  usable : usableAmount s.payment = .ok ()
  planned : Plan.make env s.payment = .ok plan
  equipped : Equipped env plan units

/-- Where no transaction may have been sent, none was. -/
theorem unsent_of_truth {s : State} (h : Truth s) (hkinds : broadcastable s.payment.status = []) :
    s.txs = [] := by
  refine List.eq_nil_iff_forall_not_mem.mpr fun tx htx => ?_
  obtain ⟨hash, hhash⟩ := List.getElem?_of_mem htx
  have := h.kinds tx.call.kind hash ⟨tx, hhash, rfl⟩
  rw [hkinds] at this
  cases this

/-- **An execution settles the payment**, left to itself while the treasury has what is due on the
destination network: the escrow is released, and the recipient is paid. -/
theorem execution_settles {c : Config env} {plan : Plan} {units : ℕ} {actor : String}
    {routeId : Option String} (h : Reachable env new c)
    (hcan : CanExecute env c.world.state plan units) :
    BringsAbout c (Liquid units) (.execute actor routeId) fun reply s =>
      (∃ p, reply = .payment p ∧ p.status = .settled) ∧ s.payment.status = .settled ∧ Paid s ∧
        s.escrow s.payment.sourceNetwork = .settled := by
  have htruth := h.inv.truth
  have hunsent := unsent_of_truth htruth (by rw [hcan.status]; rfl)
  have hescrow : c.world.state.escrow c.world.state.payment.sourceNetwork = .none :=
    (untouched_of_truth h.inv (by rw [hcan.status]; decide)).1 _
  have hcredits := no_credit htruth (by rw [hcan.status]; decide) (by rw [hcan.status]; decide)
  have hmade := Plan.made hcan.planned
  have hhome : plan.sourceNet = c.world.state.payment.sourceNetwork :=
    hmade.sourceNet.trans (h.home plan.route hmade.route)
  have hv : Stands c.world.state (standing c.world.state [.none, .initiated, .settled])
      c.world.state :=
    stands_standing (by simp [hescrow]) fun tx htx => by simp [hunsent] at htx
  refine bringsAbout_of_leads h hv (Leads.bind
    (leads_runExecute (unfailing_liquid units) (fun _ hc => hc.free) hcan.status hcan.unleased
      hcan.usable hcan.planned hcan.equipped hhome hescrow rfl hcredits)
    (R := fun reply v => (∃ p, reply = .payment p ∧ p.status = .settled) ∧
      v.payment.status = .settled) ?_) ?_
  · rintro p v ⟨hp, hv⟩
    exact leads_ret ⟨⟨p, rfl, hp⟩, hv⟩
  · rintro reply v s ⟨hreply, hv⟩ hs htruth'
    have hstatus : s.payment.status = .settled := by rw [hs.payment, hv]
    exact ⟨hreply, hstatus, .inl (htruth'.settledEnd hstatus).1,
      htruth'.released (by rw [hstatus]; decide)⟩

/-- What a computation gives. -/
theorem ok_of_toOption {α : Type} {x : Except Err α} {a : α} (h : x.toOption = some a) :
    x = .ok a := by
  cases x with
  | error e => cases h
  | ok b => exact congrArg Except.ok (Option.some.inj h)

/-- The execution of the sample payment is cut off after the screening. -/
def approvedRun : List (Move sampleEnv) := quotedRun ++ .start (.execute "ops" none) :: steps 1 6

/-- The sample payment, approved and not executed. -/
theorem execution_settles_sample : ∃ c : Config sampleEnv,
    Reachable sampleEnv samplePayment c ∧ c.world.state.payment.status = .approved ∧
      BringsAbout c (Liquid 99640000) (.execute "ops" none) fun reply s =>
        (∃ p, reply = .payment p ∧ p.status = .settled) ∧ s.payment.status = .settled ∧ Paid s ∧
          s.escrow s.payment.sourceNetwork = .settled := by
  obtain ⟨c, hc, hP⟩ := reached sampleEnv samplePayment approvedRun
    (P := fun c => c.world.state.payment.status == .approved &&
      c.world.state.payment.executionLeaseId == none &&
      (usableAmount c.world.state.payment).toOption == some () &&
      (Plan.make sampleEnv c.world.state.payment).toOption.any fun plan =>
        plan.sourceNet == "alpha" && plan.destNet == "beta" && plan.sourceToken.isSome &&
          (destinationUnits plan.destAmount 6).toOption == some 99640000) (by decide +kernel)
  simp only [Bool.and_eq_true, beq_iff_eq, Option.any_eq_true, Option.isSome_iff_ne_none] at hP
  obtain ⟨⟨⟨hstatus, hfree⟩, husable⟩, plan, hplan, ⟨⟨hsource, hdest⟩, htoken⟩, hunits⟩ := hP
  refine ⟨c, hc, hstatus, execution_settles hc ⟨hstatus, hfree, ok_of_toOption husable,
    ok_of_toOption hplan, htoken, ?_, ?_, ?_, ?_⟩⟩
  · exact ⟨⟨false⟩, rfl⟩
  · rw [hsource]
    exact ⟨_, "0x5e", rfl, rfl⟩
  · rw [hdest]
    exact ⟨sampleNetwork, ⟨"0x70ce", 6⟩, rfl, rfl, ok_of_toOption hunits⟩
  · rw [hdest]
    exact fun _ => ⟨_, rfl⟩

/-! ## Repair -/

/-- What a repair needs. -/
structure CanRepair (env : Env) (s : State) : Prop where
  status : s.payment.status = .compensationPending
  unleased : s.payment.executionLeaseId = none
  /-- the transfer back can be worked out -/
  context : ∃ ctx, compensationContextFor env s.payment = .ok ctx
  /-- the operator's accounts on the source network are configured -/
  accounts : ∃ accounts, env.accountsFor s.payment.sourceNetwork = .ok accounts
  /-- the payout the row names has its receipt -/
  payout : ∀ hash, s.payment.destinationTxHash = some hash →
    ∃ r, s.receipt s.payment.destinationNetwork hash = some r
  /-- and so has the compensation it names -/
  compensation : ∀ hash, s.payment.compensationTxHash = some hash →
    ∃ r, s.receipt s.payment.sourceNetwork hash = some r

/-- A payout whose compensation is pending has reverted. -/
theorem repairable_of_canRepair {c : Config env} (h : Reachable env new c)
    (hcan : CanRepair env c.world.state) :
    Repairable env c.world.state c.world.state.payment where
  status := hcan.status
  source := rfl
  context := hcan.context
  accounts := hcan.accounts
  payout hash hhash := by
    obtain ⟨r, hr⟩ := hcan.payout hash hhash
    have hreverted : Mined c.world.state hash false := h.inv.truth.noPayout
      (by rw [hcan.status]; decide) hash (h.inv.truth.payoutHash hash hhash)
    exact ⟨r, hr, (mined_of_receipt hr).unique hreverted⟩
  compensation := hcan.compensation

/-- **A repair compensates the sender**, left to itself, wherever the runs before it have left the
payment: whichever earlier attempts were cut off, and whatever they sent. -/
theorem repair_compensates {c : Config env} (h : Reachable env new c)
    (hcan : CanRepair env c.world.state) :
    BringsAbout c NoFailure .repair fun reply s =>
      (∃ p, reply = .payment p ∧ p.status = .compensated) ∧ s.payment.status = .compensated ∧
        MadeWhole s := by
  have hescrow := h.inv.truth.released (by rw [hcan.status]; decide)
  have hv := stands_standing (List.mem_singleton.mpr hescrow)
    fun _ _ => calm_released _ _ _
  refine bringsAbout_of_leads h hv (Leads.bind
    (leads_repairCompensation unfailing_noFailure (repairable_of_canRepair h hcan) hcan.unleased
      hescrow)
    (R := fun reply v => (∃ p, reply = .payment p ∧ p.status = .compensated) ∧
      v.payment.status = .compensated) ?_) ?_
  · rintro p v ⟨hp, hv⟩
    exact leads_ret ⟨⟨p, rfl, hp⟩, hv⟩
  · rintro reply v s ⟨hreply, hv⟩ hs htruth
    have hstatus : s.payment.status = .compensated := by rw [hs.payment, hv]
    obtain ⟨hash, hhash, hmined⟩ := htruth.compensatedEnd hstatus
    exact ⟨hreply, hstatus, .inr ⟨hash, htruth.compensationHash hash hhash, hmined⟩⟩

/-- The payout of the sample payment has reverted, and so has its compensation. -/
def uncompensatedRun : List (Move sampleEnv) := unpaidRun ++ steps 1 3 ++ revert 4 :: steps 1 5

/-- The sample payment, when both transfers have reverted. -/
theorem repair_compensates_sample : ∃ c : Config sampleEnv,
    Reachable sampleEnv samplePayment c ∧ c.world.state.payment.compensationTxHash = some 4 ∧
      BringsAbout c NoFailure .repair fun reply s =>
        (∃ p, reply = .payment p ∧ p.status = .compensated) ∧ s.payment.status = .compensated ∧
          MadeWhole s := by
  obtain ⟨c, hc, hP⟩ := reached sampleEnv samplePayment uncompensatedRun
    (P := fun c => c.world.state.payment.status == .compensationPending &&
      c.world.state.payment.executionLeaseId == none &&
      (compensationContextFor sampleEnv c.world.state.payment).toOption.isSome &&
      (sampleEnv.accountsFor c.world.state.payment.sourceNetwork).toOption.isSome &&
      c.world.state.payment.destinationTxHash == some 3 &&
      (c.world.state.receipt c.world.state.payment.destinationNetwork 3).isSome &&
      c.world.state.payment.compensationTxHash == some 4 &&
      (c.world.state.receipt c.world.state.payment.sourceNetwork 4).isSome) (by decide +kernel)
  simp only [Bool.and_eq_true, beq_iff_eq, Option.isSome_iff_exists] at hP
  obtain ⟨⟨⟨⟨⟨⟨⟨hstatus, hfree⟩, hcontext⟩, haccounts⟩, hpayout⟩, hpaid⟩, hcomp⟩, hback⟩ := hP
  refine ⟨c, hc, hcomp, repair_compensates hc ⟨hstatus, hfree, ?_, ?_, ?_, ?_⟩⟩
  · exact hcontext.imp fun _ => ok_of_toOption
  · exact haccounts.imp fun _ => ok_of_toOption
  · intro hash hhash
    cases hpayout.symm.trans hhash
    exact hpaid
  · intro hash hhash
    cases hcomp.symm.trans hhash
    exact hback

/-! ## Reconciling a payout -/

/-- What a reconcile of a payout needs. -/
structure CanReconcile (s : State) (r : Receipt) : Prop where
  status : s.payment.status = .payoutPending
  unleased : s.payment.executionLeaseId = none
  /-- the payout the row names has its receipt -/
  payout : ∃ hash, s.payment.destinationTxHash = some hash ∧
    s.receipt s.payment.destinationNetwork hash = some r

/-- **A reconcile ends the payout**, left to itself: a payout that went through is settled, and its
recipient has been paid; one that reverted leaves the compensation to a repair, which may claim the
lease. -/
theorem reconcile_ends_payout {c : Config env} {r : Receipt} (h : Reachable env new c)
    (hcan : CanReconcile c.world.state r) :
    BringsAbout c NoFailure .reconcile fun reply s =>
      (∃ result, reply = .reconciled result ∧ result.payment.status = s.payment.status) ∧
      s.payment.executionLeaseId = none ∧
      ((r.success = true ∧ s.payment.status = .settled ∧ Paid s) ∨
        (r.success = false ∧ s.payment.status = .compensationPending ∧ ¬ Paid s)) := by
  have htruth := h.inv.truth
  have hescrow := htruth.released (by rw [hcan.status]; decide)
  obtain ⟨res, hres⟩ := Option.ne_none_iff_exists'.mp
    (htruth.reserved (by rw [hcan.status]; decide))
  obtain ⟨amount, hamount, -⟩ := priced_of_faithful h h.performed (by rw [hcan.status]; decide)
  have howed : owedAmount c.world.state.payment = .ok amount := by rw [owedAmount, hamount]
  have hv := stands_standing (List.mem_singleton.mpr hescrow)
    fun _ _ => calm_released _ _ _
  refine bringsAbout_of_leads h hv (Leads.bind
    (leads_reconcile unfailing_noFailure ⟨hcan.status, hcan.payout, amount, howed⟩ hcan.unleased
      hres)
    (R := fun reply v => (∃ result, reply = .reconciled result ∧
      result.payment.status = v.payment.status) ∧ v.payment.status = reconciledStatus r ∧
      v.payment.executionLeaseId = none) ?_) ?_
  · rintro result v ⟨hresult, hv, hnone⟩
    exact leads_ret ⟨⟨result, rfl, hresult.trans hv.symm⟩, hv, hnone⟩
  · rintro reply v s ⟨hreply, hv, hnone⟩ hs htruth'
    rw [← hs.payment] at hreply hv hnone
    refine ⟨hreply, hnone, ?_⟩
    cases hsuccess : r.success with
    | true =>
      simp only [reconciledStatus, hsuccess, if_true] at hv
      exact .inl ⟨rfl, hv, .inl (htruth'.settledEnd hv).1⟩
    | false =>
      simp only [reconciledStatus, hsuccess] at hv
      refine .inr ⟨rfl, hv, ?_⟩
      rintro (hcredited | ⟨hash, hsent, hmined⟩)
      · exact hcredited (no_credit htruth' (by rw [hv]; decide) (by rw [hv]; decide))
      · cases hmined.unique (htruth'.noPayout (by rw [hv]; decide) hash hsent)

/-- The payout of the sample payment is mined after its execution has given up on it. -/
def unconfirmedRun : List (Move sampleEnv) :=
  quotedRun ++ .start (.execute "ops" none) :: steps 1 14 ++ mine 0 :: steps 1 3 ++
    mine 1 :: steps 1 4 ++ mine 2 :: steps 1 5 ++ failure 1 :: steps 1 4 ++ [mine 3]

/-- The sample payment, paid out and not settled. -/
theorem reconcile_ends_payout_sample : ∃ (c : Config sampleEnv) (r : Receipt),
    Reachable sampleEnv samplePayment c ∧ c.world.state.payment.status = .payoutPending ∧
    BringsAbout c NoFailure .reconcile fun reply s =>
      (∃ result, reply = .reconciled result ∧ result.payment.status = s.payment.status) ∧
      s.payment.executionLeaseId = none ∧
      ((r.success = true ∧ s.payment.status = .settled ∧ Paid s) ∨
        (r.success = false ∧ s.payment.status = .compensationPending ∧ ¬ Paid s)) := by
  obtain ⟨c, hc, hP⟩ := reached sampleEnv samplePayment unconfirmedRun
    (P := fun c => c.world.state.payment.status == .payoutPending &&
      c.world.state.payment.executionLeaseId == none &&
      c.world.state.payment.destinationTxHash == some 3 &&
      (c.world.state.receipt c.world.state.payment.destinationNetwork 3).isSome) (by decide +kernel)
  simp only [Bool.and_eq_true, beq_iff_eq, Option.isSome_iff_exists] at hP
  obtain ⟨⟨⟨hstatus, hfree⟩, hpayout⟩, r, hr⟩ := hP
  exact ⟨c, r, hc, hstatus, reconcile_ends_payout hc ⟨hstatus, hfree, 3, hpayout, hr⟩⟩

end SettlementOS.Results
