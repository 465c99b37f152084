import SettlementOS.Analysis.Clearance

/-!
# Whose wallets are screened, and whose are paid

A screening is made of the wallets on the networks of the row the gate has just read. An
execution takes its wallets from the plan it works out from an approved row, on the networks of
the selected route. Before a payment is cleared nothing writes its networks, and the routes a
quote writes end on one of the two that the row it read has.
-/

set_option autoImplicit false

namespace SettlementOS.Analysis

open SettlementOS.Computation Model Program Law

variable {env : Env} {p : Payment} {plan : Plan} {past : List (Event sagaEffects)} {α : Type}

/-! ## The law -/

/-- The wallet addresses a transaction is passed, apart from the treasury's and those of a
compensation. -/
def passedAddresses : Call → List String
  | .initiatePayment _ sender recipient _ _ _ _ => [sender, recipient]
  | .transfer .destinationPayout _ recipient _ => [recipient]
  | _ => []

/-- A transaction that is passed wallets is passed those of the plan. -/
def NamesPlan (plan : Plan) : Call → Prop
  | .initiatePayment _ sender recipient _ _ _ _ =>
    sender = plan.senderWallet.address ∧ recipient = plan.recipientWallet.address
  | .transfer .destinationPayout _ recipient _ =>
    plan.isCrossChain = true ∧ recipient = plan.recipientWallet.address
  | _ => True

/-- What an execution of `p` may perform: a transaction is passed the wallets of its plan. -/
def Directs (env : Env) (p : Payment) : Stmt → Prop
  | .screen .. => False
  | .createComplianceChecks _ => False
  | .writeContract _ c => passedAddresses c ≠ [] →
    ∃ plan, Plan.make env p = .ok plan ∧ NamesPlan plan c
  | _ => True

/-- The row was read. -/
def WasRead (past : List (Event sagaEffects)) (row : Payment) : Prop :=
  (⟨.findPayment, .ok row⟩ : Event sagaEffects) ∈ past

/-- The row was read when the payment had been cleared. -/
def ReadCleared (past : List (Event sagaEffects)) : Prop :=
  ∃ row, WasRead past row ∧ row.status ∈ clearedStates

/-- The network is one of the two of the row. -/
def IsEnd (row : Payment) (network : Network) : Prop :=
  network = row.destinationNetwork ∨ network = row.sourceNetwork

/-- A status change that leaves the networks alone, and whose routes end on one of the row that
was read. -/
def KeepsNetworks (past : List (Event sagaEffects)) (next : PaymentStatus) (data : PaymentPatch) :
    Prop :=
  data.destinationNetwork = none ∧ ∀ routes, data.quoteJson = some routes → next = .quoted ∧
    ∃ row, WasRead past row ∧ ∀ r ∈ routes, IsEnd row r.destinationNetwork

/-- Screenings are of the row's wallets, transactions of the plan's. -/
def parties (env : Env) : Law sagaEffects where
  Answers _ _ := True
  Allows past e :=
    match e with
    | ⟨.screen senderWallet recipientWallet, _⟩ => ∃ row rest,
      past = ⟨.findPayment, .ok row⟩ :: rest ∧
        senderWallet = walletOnNetwork env.sender.wallets row.sourceNetwork ∧
        recipientWallet = walletOnNetwork env.recipient.wallets row.destinationNetwork ∧
        (∃ x ∈ rest, exits x = true) ∧ ∀ x ∈ rest, stores x = false
    | ⟨.createComplianceChecks _, _⟩ => ∃ x ∈ past, screens x = true
    | ⟨.updatePayment _, _⟩ => ReadCleared past
    | ⟨.transition _ next opts, _⟩ => ReadCleared past ∨ KeepsNetworks past next opts.data
    | ⟨.writeContract _ c, _⟩ => passedAddresses c ≠ [] →
      ∃ row, WasRead past row ∧ row.status = .approved ∧
        ∃ plan, Plan.make env row = .ok plan ∧ NamesPlan plan c
    | _ => True

/-! ## An execution -/

/-- A deed that passes no wallet. -/
def walletless : Deed → Bool
  | .screen => false
  | .send k => k ≠ .initiate && k ≠ .payout
  | _ => true

/-- Only an initiation and a payout are passed wallets. -/
theorem passed_of_walletless {c : Call} (h : walletless (.send c.kind) = true) :
    passedAddresses c = [] := by
  cases c with
  | initiatePayment id sender recipient asset amount source destination => cases h
  | transfer leg token recipient amount =>
    cases leg with
    | destinationPayout => cases h
    | compensation => rfl
  | _ => rfl

/-- A deed without wallets directs nothing elsewhere. -/
theorem directs_of_within {ds : List Deed} {o : Stmt} (ho : Within ds o)
    (hds : ∀ d ∈ ds, walletless d = true) : Directs env p o := by
  have hdeed : ∀ d, deedOf o = some d → walletless d = true := fun d hd => hds d (ho d hd)
  cases o with
  | screen a b => exact absurd (hdeed .screen rfl) (by decide)
  | createComplianceChecks checks => exact absurd (hdeed .screen rfl) (by decide)
  | writeContract network c => exact fun hne => absurd (passed_of_walletless (hdeed _ rfl)) hne
  | _ => trivial

/-- A program that passes no wallet. -/
theorem directs_of_uses {ε : Type} {D : List Deed} {prog : Prog sagaEffects ε α}
    (h : prog.Uses (Within D)) (hD : ∀ d ∈ D, walletless d = true) :
    prog.Uses (Directs env p) :=
  h.mono fun _ ho => directs_of_within ho hD

/-- A write passes what its transaction is passed. -/
theorem directs_operatorWrite {network : Network} {c : Call}
    (hc : Directs env p (.writeContract network c)) :
    (operatorWrite env network c).Uses (Directs env p) := by
  have hsend : (call (.writeContract network c)).Uses (Directs env p) :=
    ⟨hc, fun r => Prog.uses_ofExcept r⟩
  have hretry : ∀ retries, (retryOnReplicaLag ((lift (env.contracts network)).bind fun _ =>
      call (.writeContract network c)) (replicaLagMessage c) retries).Uses (Directs env p) := by
    intro retries
    induction retries with
    | zero => exact Prog.Uses.bind (Prog.uses_ofExcept _) fun _ => hsend
    | succ retries ih =>
      apply Prog.Uses.handle (Prog.Uses.bind (Prog.uses_ofExcept _) fun _ => hsend)
      intro err
      split
      · exact ih
      · trivial
  exact Prog.Uses.bind (Prog.uses_ofExcept _) fun _ =>
    Prog.Uses.bind (Prog.uses_ofExcept _) fun retries =>
    Prog.Uses.bind (hretry retries) fun hash =>
    directs_of_uses (D := []) (does_confirm _ _) (by simp)

/-- The escrow leg passes the wallets of the plan. -/
theorem directs_escrowLeg {pid : String} {units : ℕ} {row : Payment}
    (hplan : Plan.make env p = .ok plan) :
    (escrowLeg env plan pid units row).Uses (Directs env p) := by
  apply Prog.Uses.bind
    (directs_of_uses (does_grantAllowance _ _ _ (List.mem_singleton_self _)) (by decide)).keeping
  intro _
  apply Prog.Uses.bind (Prog.Uses.keeping (Prog.uses_ofExcept _))
  intro asset
  have hinitiate : Directs env p (.writeContract plan.sourceNet (.initiatePayment pid
      plan.senderWallet.address plan.recipientWallet.address asset units row.sourceCurrency
      row.destinationCurrency)) := fun _ => ⟨plan, hplan, rfl, rfl⟩
  apply Prog.Uses.bind (directs_operatorWrite hinitiate).keeping
  intro initTx
  exact Prog.Uses.bind (directs_of_uses (does_setStatus _ _ _ (List.mem_singleton_self _) rfl)
    (by decide)).keeping fun _ => trivial

/-- Paying the recipient passes the plan's. -/
theorem directs_payRecipient {units : ℕ} {row : Payment} (hplan : Plan.make env p = .ok plan) :
    (payRecipient env plan units row).Uses (Directs env p) := by
  unfold payRecipient
  split
  · rename_i hcross
    have hsend : ∀ token : Token, (call (.writeContract plan.destNet
        (.transfer .destinationPayout token.address plan.recipientWallet.address units))).Uses
        (Directs env p) := fun token =>
      ⟨fun _ => ⟨plan, hplan, hcross, rfl⟩, fun r => Prog.uses_ofExcept r⟩
    have htransfer : (treasuryTokenTransfer env .destinationPayout plan.destNet
        plan.destAsset.symbol plan.recipientWallet.address units).Uses (Directs env p) :=
      Prog.Uses.bind (Prog.uses_ofExcept _) fun _ =>
        Prog.Uses.bind (Prog.uses_ofExcept _) fun token =>
        Prog.Uses.bind (Prog.uses_ofExcept _) fun _ => hsend token
    exact Prog.Uses.bind htransfer.keeping fun _ =>
      Prog.Uses.bind (directs_of_uses (D := []) (does_plain rfl) (by simp)).keeping fun _ =>
      Prog.Uses.bind (directs_of_uses (D := []) (does_audit _ _ _) (by simp)).keeping fun _ =>
      Prog.Uses.bind (directs_of_uses (D := []) (does_confirm _ _) (by simp)).keeping fun _ =>
      Prog.Uses.bind (directs_of_uses (D := []) (does_audit _ _ _) (by simp)).keeping fun _ =>
      trivial
  · trivial

/-- Settling passes the wallets of the plan. -/
theorem directs_settle {pid : String} {units : ℕ} {row : Payment}
    (hplan : Plan.make env p = .ok plan) :
    (settle env plan pid units row).Uses (Directs env p) := by
  have hpayout : ∀ row units, (payoutLeg env plan units row).Uses (Directs env p) :=
    fun row units =>
      Prog.Uses.bind (directs_of_uses (does_setStatus _ _ _ (List.mem_singleton_self _) rfl)
        (by decide)).keeping fun _ =>
      Prog.Uses.bind (directs_payRecipient hplan) fun _ =>
      Prog.Uses.bind (directs_of_uses (does_creditRecipient _ _ (List.mem_singleton_self _))
        (by decide)).keeping fun _ =>
      Prog.Uses.bind (directs_of_uses (D := []) (does_plain rfl) (by simp)).keeping fun _ =>
      (directs_of_uses (does_setStatus _ _ _ (List.mem_singleton_self _) rfl) (by decide)).keeping
  exact Prog.Uses.bind (directs_escrowLeg hplan) fun _ =>
    Prog.Uses.bind (directs_of_uses (does_settlementLeg _ _ _ _ (List.Subset.refl _)) (by decide))
      fun _ => hpayout _ _

/-- The execution proper passes the wallets of the plan of its row. -/
theorem directs_runExecution {leaseId : ℕ} : (runExecution env leaseId p).Uses (Directs env p) := by
  unfold runExecution
  cases hplan : Plan.make env p with
  | error e => trivial
  | ok plan =>
    apply Prog.Uses.bind (directs_of_uses (D := []) (does_alignDestination _ _) (by simp))
    intro row
    apply Prog.Uses.bind
      (directs_of_uses (does_autoRecall _ _ (List.mem_singleton_self _)) (by decide))
    intro _
    apply Prog.Uses.bind
      (directs_of_uses (does_checkLiquidity _ _ (List.mem_singleton_self _)) (by decide))
    intro _
    apply Prog.Uses.bind
      (directs_of_uses (does_reserveLiquidity _ _ _ (List.mem_singleton_self _)) (by decide))
    intro _
    apply Prog.Uses.bind
      (directs_of_uses (does_setStatus _ _ _ (List.mem_singleton_self _) rfl) (by decide))
    intro row
    apply Prog.Uses.bind (Prog.uses_ofExcept _)
    intro decimals
    apply Prog.Uses.bind (Prog.uses_ofExcept _)
    intro units
    exact Prog.Uses.handle (directs_settle hplan) fun e =>
      directs_of_uses (does_recover _ _ _ (List.Subset.refl _)) (by decide)

/-- The lease is claimed and given back around it. -/
theorem directs_withExecutionLease {id : String} {leaseId : ℕ} {status : PaymentStatus}
    {fn : Saga α} (h : fn.Uses (Directs env p)) :
    (withExecutionLease id leaseId status fn).Uses (Directs env p) := by
  refine ⟨trivial, fun r => Prog.Uses.bind (Prog.uses_ofExcept r) fun claimed => ?_⟩
  split
  · have hattempt : (fn.attempt : Saga (Except Err α)).Uses (Directs env p) :=
      Prog.Uses.handle (Prog.Uses.bind h fun _ => trivial) fun _ => trivial
    have hrelease : (call (.releaseLease leaseId)).Uses (Directs env p) :=
      ⟨trivial, fun r => Prog.uses_ofExcept r⟩
    exact Prog.Uses.bind hattempt fun r => Prog.Uses.bind hrelease.ignoring fun _ =>
      Prog.uses_ofExcept r
  · trivial

/-! ## The requests -/

/-- A statement of the law, of which the answer is kept. -/
theorem parties_call {o : Stmt} (h : ∀ r, (parties env).Allows past ⟨o, r⟩) :
    (parties env).Keeps (fun a past' => past' = ⟨o, .ok a⟩ :: past) (fun _ _ => True) (call o)
      past := by
  intro r _
  refine ⟨h r, ?_⟩
  cases r with
  | ok a => exact (rfl : _ = _)
  | error e => trivial

/-- After a read of the cleared row, a program that is passed no wallet keeps the law. -/
theorem parties_of_within {ε : Type} {D : List Deed} {prog : Prog sagaEffects ε α}
    (h : prog.Uses (Within D)) (hD : ∀ d ∈ D, walletless d = true) (hread : ReadCleared past) :
    (parties env).Keeps (fun _ _ => True) (fun _ _ => True) prog past := by
  obtain ⟨row, hrow, hcleared⟩ := hread
  refine keeps_mono (keeps_of_uses (P := fun past => WasRead past row)
    (fun past o r ho hrow _ => ⟨?_, List.mem_cons_of_mem _ hrow⟩) h hrow) (fun _ _ _ => trivial)
    fun _ _ _ => trivial
  have hdirects : Directs env row o := directs_of_within ho hD
  cases o with
  | screen a b => exact absurd hdirects id
  | createComplianceChecks checks => exact absurd hdirects id
  | updatePayment data => exact ⟨row, hrow, hcleared⟩
  | transition status next opts => exact .inl ⟨row, hrow, hcleared⟩
  | writeContract network c =>
    have hdeed : walletless (.send c.kind) = true := hD _ (ho _ rfl)
    exact fun hne => absurd (passed_of_walletless hdeed) hne
  | _ => trivial

/-- After a read of the approved row, an execution of it keeps the law. -/
theorem parties_of_directs {ε : Type} {row : Payment} {prog : Prog sagaEffects ε α}
    (h : prog.Uses (Directs env row)) (hrow : WasRead past row) (hs : row.status = .approved) :
    (parties env).Keeps (fun _ _ => True) (fun _ _ => True) prog past := by
  have hcleared : row.status ∈ clearedStates := by rw [hs]; decide
  refine keeps_mono (keeps_of_uses (P := fun past => WasRead past row)
    (fun past o r ho hrow _ => ⟨?_, List.mem_cons_of_mem _ hrow⟩) h hrow) (fun _ _ _ => trivial)
    fun _ _ _ => trivial
  cases o with
  | screen a b => exact absurd ho id
  | createComplianceChecks checks => exact absurd ho id
  | updatePayment data => exact ⟨row, hrow, hcleared⟩
  | transition status next opts => exact .inl ⟨row, hrow, hcleared⟩
  | writeContract network c => exact fun hne => ⟨row, hrow, hs, ho hne⟩
  | _ => trivial

/-- An execution of an approved payment keeps the law. -/
theorem parties_executePayment {leaseId : ℕ} :
    (parties env).Keeps (fun _ _ => True) (fun _ _ => True) (executePayment env leaseId) past := by
  apply keeps_bind
  refine keeps_mono (parties_call fun _ => trivial) ?_ fun _ _ _ => trivial
  rintro row _ rfl
  split
  · rename_i hstatus
    have hplan : Plan.make env { row with executionLeaseId := some leaseId } = Plan.make env row :=
      plan_congr rfl rfl
    have hrun : (runExecution env leaseId { row with executionLeaseId := some leaseId }).Uses
        (Directs env row) := by
      refine directs_runExecution.mono fun o ho => ?_
      unfold Directs at ho ⊢
      rwa [hplan] at ho
    exact parties_of_directs (directs_withExecutionLease hrun) List.mem_cons_self hstatus
  · trivial

/-- A status change that leaves the networks alone. -/
theorem parties_transitionStatus {next : PaymentStatus} {opts : TransitionOpts}
    (h : KeepsNetworks past next opts.data) :
    (parties env).Keeps
      (fun row past' => past' = ⟨.transition p.status next opts, .ok (some row)⟩ :: past)
      (fun _ _ => True) (transitionStatus p next opts) past := by
  unfold transitionStatus
  split
  · intro r _
    refine ⟨.inr h, ?_⟩
    cases r with
    | error e => trivial
    | ok row =>
      cases row with
      | none => trivial
      | some row => exact (rfl : _ = _)
  · trivial

/-- A status change that writes no route. -/
theorem keepsNetworks_of_none {next : PaymentStatus} {data : PaymentPatch}
    (hnet : data.destinationNetwork = none) (hquote : data.quoteJson = none) :
    KeepsNetworks past next data :=
  ⟨hnet, fun routes hroutes => by rw [hquote] at hroutes; cases hroutes⟩

/-- A status change that writes no column but the status. -/
theorem parties_move {next : PaymentStatus} {opts : TransitionOpts} (h : opts.data = {}) :
    (parties env).Keeps (fun _ _ => True) (fun _ _ => True) (transitionStatus p next opts) past :=
  keeps_mono (parties_transitionStatus (by rw [h]; exact keepsNetworks_of_none rfl rfl))
    (fun _ _ _ => trivial) fun _ _ _ => trivial

/-- A route that was picked writes neither a network nor a quote. -/
theorem routeSelection_columns {routeId : Option String} {selection : PaymentPatch}
    (h : routeSelection p routeId = .ok selection) :
    selection.destinationNetwork = none ∧ selection.quoteJson = none := by
  unfold routeSelection at h
  split at h
  · cases h
    exact ⟨rfl, rfl⟩
  · split at h
    · split at h <;> cases h
      exact ⟨rfl, rfl⟩
    · cases h
      exact ⟨rfl, rfl⟩

/-- The gate of a payment at `QUOTED` screens the wallets of the row it reads. -/
theorem parties_complianceGate {actor : String} {selection : PaymentPatch}
    (hp : p.status = .quoted) (hnet : selection.destinationNetwork = none)
    (hquote : selection.quoteJson = none) (hnone : ∀ x ∈ past, stores x = false) :
    (parties env).Keeps (fun _ _ => True) (fun _ _ => True) (complianceGate env actor p selection)
      past := by
  apply keeps_bind
  refine keeps_mono (parties_transitionStatus (keepsNetworks_of_none hnet hquote)) ?_
    fun _ _ _ => trivial
  rintro row _ rfl
  rw [hp]
  apply keeps_bind
  have hscreen : (parties env).Keeps (fun _ _ => True) (fun _ _ => True) (runComplianceChecks env)
      (⟨.transition .quoted .compliancePending { data := selection, actor := some actor },
        .ok (some row)⟩ :: past) := by
    apply keeps_bind
    refine keeps_mono (parties_call fun _ => trivial) ?_ fun _ _ _ => trivial
    rintro read _ rfl
    apply keeps_bind
    have hstores : ∀ x ∈ (⟨.transition .quoted .compliancePending
        { data := selection, actor := some actor }, .ok (some row)⟩ : Event sagaEffects) :: past,
        stores x = false := by
      intro x hx
      rcases List.mem_cons.mp hx with rfl | hx
      · rfl
      · exact hnone x hx
    refine keeps_mono (parties_call fun _ => ⟨read, _, rfl, rfl, rfl,
      ⟨_, List.mem_cons_self, rfl⟩, hstores⟩) ?_ fun _ _ _ => trivial
    rintro answers _ rfl
    apply keeps_bind
    refine keeps_ofExcept (fun checks _ => ?_) fun _ _ => trivial
    apply keeps_bind
    exact keeps_mono (parties_call fun _ => ⟨_, List.mem_cons_self, rfl⟩) (fun _ _ _ => trivial)
      fun _ _ _ => trivial
  refine keeps_mono hscreen (fun overall past _ => ?_) fun _ _ _ => trivial
  cases overall with
  | rejected => exact parties_move rfl
  | manualReview => exact parties_move rfl
  | approved => exact parties_move rfl

/-- So does an execution. -/
theorem parties_runExecute {leaseId : ℕ} {actor : String} {routeId : Option String} :
    (parties env).Keeps (fun _ _ => True) (fun _ _ => True)
      (runExecute env leaseId actor routeId) [] := by
  have happroved : ∀ past, (parties env).Keeps (fun _ _ => True) (fun _ _ => True)
      (executeApproved env leaseId) past := by
    intro past
    apply keeps_handle
    refine keeps_mono parties_executePayment (fun _ _ _ => trivial) fun e past _ => ?_
    apply keeps_bind
    exact keeps_mono (parties_call fun _ => trivial) (fun _ _ _ => trivial) fun _ _ _ => trivial
  apply keeps_bind
  refine keeps_mono (parties_call fun _ => trivial) ?_ fun _ _ _ => trivial
  rintro row _ rfl
  apply keeps_bind
  refine keeps_ofExcept (fun _ _ => ?_) fun _ _ => trivial
  apply keeps_bind
  refine keeps_ofExcept (fun selection hselection => ?_) fun _ _ => trivial
  obtain ⟨hnet, hquote⟩ := routeSelection_columns hselection
  split
  · rename_i hquoted
    apply keeps_bind
    refine keeps_mono (parties_complianceGate hquoted hnet hquote (by simp [stores]))
      (fun row past _ => ?_) fun _ _ _ => trivial
    split
    · exact happroved past
    · trivial
  · split
    · exact happroved _
    · trivial

/-! ## Quoting -/

/-- A statement the law never refuses. -/
def Free (env : Env) (o : Stmt) : Prop := ∀ past r, (parties env).Allows past ⟨o, r⟩

/-- Reading the liquidity is free of the law. -/
theorem free_availableLiquidity {symbol : AssetSymbol} {network : Network} :
    (availableLiquidity env symbol network).Uses (Free env) := by
  unfold availableLiquidity
  split
  · trivial
  · apply Prog.Uses.bind (Prog.uses_ofExcept _)
    intro token
    exact ⟨fun _ _ => trivial, fun r => Prog.Uses.bind (Prog.uses_ofExcept r) fun _ => trivial⟩

/-- So is checking it. -/
theorem free_liquidityCheck {symbol : AssetSymbol} {network : Network} {needed : String} :
    (liquidityCheck env symbol network needed).Uses (Free env) := by
  unfold liquidityCheck
  split
  · apply Prog.Uses.handle
    · apply Prog.Uses.bind free_availableLiquidity
      intro liq
      apply Prog.Uses.bind (Prog.uses_ofExcept _)
      intro units
      split
      · trivial
      · refine ⟨fun _ _ => trivial, fun r => Prog.Uses.bind (Prog.uses_ofExcept r) fun parked => ?_⟩
        split <;> trivial
    · intro e
      split <;> trivial
  · trivial

/-- What the law never refuses forgets no read. -/
theorem parties_of_free {row : Payment} {prog : Saga α} (h : prog.Uses (Free env))
    (hrow : WasRead past row) :
    (parties env).Keeps (fun _ past => WasRead past row) (fun _ _ => True) prog past :=
  keeps_mono (keeps_of_uses (P := fun past => WasRead past row)
    (fun past _ r ho hrow _ => ⟨ho past r, List.mem_cons_of_mem _ hrow⟩) h hrow)
    (fun _ _ h => h) fun _ _ _ => trivial

/-- The routes of a quote end on the networks of the row that was read. -/
def QuotesFor (routes : List RouteOption) (past : List (Event sagaEffects)) : Prop :=
  ∃ row, WasRead past row ∧ ∀ r ∈ routes, IsEnd row r.destinationNetwork

/-- Quoting the routes keeps the law, and the routes end on the networks of the row. -/
theorem parties_quoteRoutes :
    (parties env).Keeps QuotesFor (fun _ _ => True) (quoteRoutes env) past := by
  have hlift : ∀ {β γ : Type} {x : Except Err β} {f : β → Saga γ} {past}
      {Q : γ → List (Event sagaEffects) → Prop},
      (∀ a, (parties env).Keeps Q (fun _ _ => True) (f a) past) →
      (parties env).Keeps Q (fun _ _ => True) ((lift x).bind f) past := fun hf =>
    keeps_bind (keeps_ofExcept (fun a _ => hf a) fun _ _ => trivial)
  apply keeps_bind
  refine keeps_mono (parties_call fun _ => trivial) ?_ fun _ _ _ => trivial
  rintro row _ rfl
  have hrow : WasRead (⟨.findPayment, .ok row⟩ :: past) row := List.mem_cons_self
  refine hlift fun amountMinor => hlift fun sourceAsset => hlift fun destAsset =>
    hlift fun fx => hlift fun platformFee => ?_
  dsimp only
  split
  · rename_i hsame
    refine hlift fun destAmount => keeps_bind ?_
    refine keeps_mono (parties_of_free free_liquidityCheck hrow) (fun liq past hread => ?_)
      fun _ _ _ => trivial
    refine hlift fun _ => ⟨row, hread, fun r hr => ?_⟩
    simp only [singleNetworkRoutes, List.mem_cons, List.not_mem_nil, or_false] at hr
    rcases hr with rfl | rfl <;> exact .inl rfl
  · refine hlift fun _ => hlift fun _ => hlift fun _ => hlift fun bridged => hlift fun fallback =>
      keeps_bind ?_
    refine keeps_mono (parties_of_free free_liquidityCheck hrow) (fun liq past hread => ?_)
      fun _ _ _ => trivial
    apply keeps_bind
    refine keeps_mono (parties_of_free free_liquidityCheck hread) (fun liq' past hread => ?_)
      fun _ _ _ => trivial
    refine ⟨row, hread, fun r hr => ?_⟩
    simp only [crossNetworkRoutes, List.mem_cons, List.not_mem_nil, or_false] at hr
    rcases hr with rfl | rfl
    · exact .inl rfl
    · exact .inr rfl

/-- A quote keeps the law. -/
theorem parties_quotePayment {actor : String} :
    (parties env).Keeps (fun _ _ => True) (fun _ _ => True) (quotePayment env actor) past := by
  apply keeps_bind
  refine keeps_mono (parties_call fun _ => trivial) (fun row past _ => ?_) fun _ _ _ => trivial
  apply keeps_bind
  refine keeps_mono parties_quoteRoutes (fun routes past hroutes => ?_) fun _ _ _ => trivial
  split
  · trivial
  · have hkeeps : ∀ recommended,
        KeepsNetworks past .quoted (quoteData routes recommended) := by
      intro recommended
      refine ⟨rfl, fun routes' hroutes' => ?_⟩
      obtain rfl := Option.some.inj hroutes'
      exact ⟨rfl, hroutes⟩
    exact keeps_mono (parties_transitionStatus (hkeeps _)) (fun _ _ _ => trivial)
      fun _ _ _ => trivial

/-! ## Every request -/

/-- What follows a read of a cleared row. -/
theorem parties_after_read {D : List Deed} {k : Payment → Saga α} {row : Payment}
    (h : ((call .findPayment).bind k).Uses (Within D)) (hD : ∀ d ∈ D, walletless d = true)
    (hs : row.status ∈ clearedStates) :
    (parties env).Keeps (fun _ _ => True) (fun _ _ => True) (k row)
      (⟨.findPayment, .ok row⟩ :: past) :=
  parties_of_within (h.2 (.ok row)) hD ⟨row, List.mem_cons_self, hs⟩

/-- A repair keeps the law. -/
theorem parties_repairCompensation {leaseId : ℕ} :
    (parties env).Keeps (fun _ _ => True) (fun _ _ => True) (repairCompensation env leaseId)
      past := by
  apply keeps_bind
  refine keeps_mono (parties_call fun _ => trivial) ?_ fun _ _ _ => trivial
  rintro row _ rfl
  by_cases hs : row.status ∈ clearedStates
  · exact parties_after_read (does_repairCompensation leaseId (List.Subset.refl _)) (by decide) hs
  · have hcompensated : row.status ≠ .compensated := fun h => hs (by rw [h]; decide)
    have hpending : row.status ≠ .compensationPending := fun h => hs (by rw [h]; decide)
    rw [if_neg hcompensated, if_neg hpending]
    trivial

/-- A reconcile keeps the law. -/
theorem parties_reconcileUnresolvedPayment {leaseId : ℕ} :
    (parties env).Keeps (fun _ _ => True) (fun _ _ => True)
      (reconcileUnresolvedPayment env leaseId) past := by
  apply keeps_bind
  refine keeps_mono (parties_call fun _ => trivial) ?_ fun _ _ _ => trivial
  rintro row _ rfl
  by_cases hs : row.status ∈ clearedStates
  · exact parties_after_read (does_reconcileUnresolvedPayment leaseId (List.Subset.refl _))
      (by decide) hs
  · dsimp only
    split
    · trivial
    · trivial
    · rename_i hstatus
      exact absurd (by rw [hstatus]; decide) hs
    · rename_i hstatus
      exact absurd (by rw [hstatus]; decide) hs
    · trivial

/-- A cancel keeps the law. -/
theorem parties_cancelPayment {actor : String} :
    (parties env).Keeps (fun _ _ => True) (fun _ _ => True) (cancelPayment actor) past := by
  apply keeps_bind
  refine keeps_mono (parties_call fun _ => trivial) (fun row past _ => ?_) fun _ _ _ => trivial
  split
  · exact parties_move rfl
  · trivial

/-- A review keeps the law. -/
theorem parties_reviewPayment {actor note : String} {approve : Bool} :
    (parties env).Keeps (fun _ _ => True) (fun _ _ => True) (reviewPayment actor approve note)
      past := by
  apply keeps_bind
  refine keeps_mono (parties_call fun _ => trivial) (fun row past _ => ?_) fun _ _ _ => trivial
  split
  · exact parties_move rfl
  · trivial

/-- **Every request keeps the law.** -/
theorem request_parties (i : ℕ) (r : Request) :
    (parties env).Keeps (fun _ _ => True) (fun _ _ => True) (r.program env i) [] := by
  cases r with
  | execute actor routeId => exact keeps_bind_of_forall parties_runExecute fun _ _ => trivial
  | repair => exact keeps_bind_of_forall parties_repairCompensation fun _ _ => trivial
  | reconcile => exact keeps_bind_of_forall parties_reconcileUnresolvedPayment fun _ _ => trivial
  | quote actor => exact keeps_bind_of_forall parties_quotePayment fun _ _ => trivial
  | cancel actor => exact keeps_bind_of_forall parties_cancelPayment fun _ _ => trivial
  | review actor approve note =>
    exact keeps_bind_of_forall parties_reviewPayment fun _ _ => trivial

end SettlementOS.Analysis
