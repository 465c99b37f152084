import SettlementOS.Analysis.Amounts

/-!
# Every request is faithful to the payment

An execution works its plan out from the row it was answered, an approved one: so the plan is
the one of the payment as it is in the end. From it come the escrow, the reservation, the
settlement, the payout and the credit. A reconcile credits what the row says was settled, and a
repair returns what the row says was taken.
-/

set_option autoImplicit false

namespace SettlementOS.Analysis

open SettlementOS.Computation Model Program Law

variable {env : Env} {q p : Payment} {plan : Plan} {past : List (Event sagaEffects)} {α β : Type}

/-! ## The plan -/

/-- A plan depends on the quote's columns and on those nothing ever writes. -/
theorem plan_congr (hp : identity p = identity q) (hquote : quoteOf p = quoteOf q) :
    Plan.make env p = Plan.make env q := by
  simp only [identity, Prod.mk.injEq] at hp
  unfold Plan.make
  rw [selectedRoute_congr hquote, hp.2.2.2.1, hp.2.2.2.2.1]

/-- What a plan says of the destination. -/
theorem Plan.made_destination (h : Plan.make env p = .ok plan) :
    assetForCurrency p.destinationCurrency = .ok plan.destAsset ∧
      plan.destAmount = plan.route.estimatedDestinationAmount := by
  unfold Plan.make at h
  cases hr : selectedRoute p with
  | error e => simp [hr, bind, Except.bind] at h
  | ok route =>
    cases hs : assetForCurrency p.sourceCurrency with
    | error e => simp [hr, hs, bind, Except.bind] at h
    | ok sourceAsset =>
      cases hd : assetForCurrency p.destinationCurrency with
      | error e => simp [hr, hs, hd, bind, Except.bind] at h
      | ok destAsset =>
        cases hn : env.contracts route.sourceNetwork with
        | error e => simp [hr, hs, hd, hn, bind, Except.bind] at h
        | ok net =>
          simp only [hr, hs, hd, hn, bind, Except.bind] at h
          split at h
          · cases h
            exact ⟨rfl, rfl⟩
          · cases h

/-- The plan of `q`, whose route starts where the payment does. -/
structure PlanOf (env : Env) (q : Payment) (plan : Plan) : Prop where
  made : Plan.make env q = .ok plan
  home : plan.route.sourceNetwork = q.sourceNetwork

/-- The plan's amount is that of the selected route. -/
theorem PlanOf.selected (h : PlanOf env q plan) : Selected q plan.destAmount :=
  ⟨plan.route, (Plan.made h.made).route, (Plan.made_destination h.made).2⟩

/-- The destination amount has been read at the destination token's decimals. -/
def Readable (env : Env) (plan : Plan) : Prop :=
  ∃ net token units, env.contracts plan.destNet = .ok net ∧
    net.tokens plan.destAsset.symbol = some token ∧
    destinationUnits plan.destAmount token.decimals = .ok units

/-- What is read from the amount to settle is what is due. -/
theorem PlanOf.destinationTerms (h : PlanOf env q plan) (hread : Readable env plan)
    {net : DeployedNetwork} {decimals units : ℕ} (hnet : env.contracts plan.destNet = .ok net)
    (hdecimals : Env.decimalsOf (net.tokens plan.destAsset.symbol) = .ok decimals)
    (hunits : toBaseUnits plan.destAmount decimals = .ok units) :
    ∃ token, net.tokens plan.destAsset.symbol = some token ∧
      DestinationTerms env q plan.route token units := by
  obtain ⟨net', token, units', hnet', htoken, hparse⟩ := hread
  obtain ⟨hasset, hamount⟩ := Plan.made_destination h.made
  rw [hnet, Except.ok.injEq] at hnet'
  subst hnet'
  rw [htoken, Env.decimalsOf, Except.ok.injEq] at hdecimals
  subst hdecimals
  have hsame := toBaseUnits_of_parse hparse
  rw [hunits, Except.ok.injEq] at hsame
  subst hsame
  refine ⟨token, htoken, (Plan.made h.made).route, ⟨plan.destAsset, net, hasset, ?_, htoken⟩,
    hamount ▸ hunits, hamount ▸ exactUnits_of_parse hparse⟩
  rw [← (Plan.made h.made).destNet]
  exact hnet

/-- What an execution escrows is what is due. -/
theorem PlanOf.sourceTerms (h : PlanOf env q plan) {decimals units : ℕ} {address : String}
    (hdecimals : Env.decimalsOf plan.sourceToken = .ok decimals)
    (hunits : toBaseUnits q.amount decimals = .ok units)
    (haddress : Env.addressOf plan.sourceToken = .ok address) :
    SourceTerms env q plan.sourceNet plan.senderWallet.address address units := by
  have hmade := Plan.made h.made
  have hsource : plan.sourceNet = q.sourceNetwork := hmade.sourceNet.trans h.home
  obtain ⟨net, hnet, htoken⟩ := hmade.contracts
  have hwallet := hmade.senderWallet
  rw [hsource] at hnet hwallet
  cases ht : plan.sourceToken with
  | none => simp [ht, Env.decimalsOf] at hdecimals
  | some t =>
    simp only [ht, Env.decimalsOf, Except.ok.injEq] at hdecimals
    simp only [ht, Env.addressOf, Except.ok.injEq] at haddress
    subst hdecimals haddress
    exact ⟨hsource, plan.sourceAsset, net, t, plan.senderWallet, hmade.sourceAsset, hnet,
      htoken ▸ ht, hwallet, rfl, rfl, hunits⟩

/-! ## The body of the `try` -/

/-- How the body of an execution's `try` may throw: with a row of the payment. -/
def Same (q : Payment) (e : Err × Payment) (_ : List (Event sagaEffects)) : Prop :=
  identity e.2 = identity q

/-- A statement in the body of the `try`. -/
theorem keeps_try {γ : Type} {prog : Saga γ} {Q : γ → List (Event sagaEffects) → Prop}
    (hp : identity p = identity q)
    (h : (faithful env q).Keeps Q (fun _ _ => True) prog past) :
    (faithful env q).Keeps Q (Same q) (prog.keeping p) past :=
  keeps_keeping (keeps_mono h (fun _ _ h => h) fun _ _ _ => hp)

/-- The escrow leg is faithful. -/
theorem keeps_escrowLeg {pid : String} {units decimals : ℕ} (hplan : PlanOf env q plan)
    (hp : identity p = identity q) (hdecimals : Env.decimalsOf plan.sourceToken = .ok decimals)
    (hunits : toBaseUnits q.amount decimals = .ok units) :
    (faithful env q).Keeps (fun (r : Payment × TxResult) _ => identity r.1 = identity q) (Same q)
      (escrowLeg env plan pid units p) past := by
  apply keeps_bind
  refine keeps_mono (keeps_try hp (keeps_amountless (does_grantAllowance plan units p
    (List.mem_singleton_self _)) (by decide))) (fun _ past _ => ?_) fun _ _ h => h
  apply keeps_bind
  refine keeps_mono (keeps_try hp keeps_lift) (fun address past haddress => ?_) fun _ _ h => h
  have hdue := hplan.sourceTerms hdecimals hunits haddress
  apply keeps_bind
  refine keeps_mono (keeps_try hp (keeps_operatorWrite hdue)) (fun initTx past _ => ?_)
    fun _ _ h => h
  apply keeps_bind
  refine keeps_mono (keeps_try hp (keeps_transitionStatus (prices_none (by decide) rfl) rfl))
    (fun row past hrow => ?_) fun _ _ h => h
  exact hrow.identity

/-- The settlement leg is faithful, and hands on what is to be paid out. -/
theorem keeps_settlementLeg {pid : String} {initTx : TxResult} (hplan : PlanOf env q plan)
    (hread : Readable env plan) (hp : identity p = identity q) :
    (faithful env q).Keeps (fun (r : Payment × ℕ) _ => identity r.1 = identity q ∧
        ∃ token, DestinationTerms env q plan.route token r.2 ∧ ∀ net,
          env.contracts plan.destNet = .ok net → net.tokens plan.destAsset.symbol = some token)
      (Same q) (settlementLeg env plan pid initTx p) past := by
  apply keeps_bind
  refine keeps_mono (keeps_try hp (keeps_transitionStatus (prices_none (by decide) rfl) rfl))
    (fun row past hrow => ?_) fun _ _ h => h
  have hp := hrow.identity
  apply keeps_bind
  refine keeps_mono (keeps_try hp keeps_lift) (fun net past hnet => ?_) fun _ _ h => h
  apply keeps_bind
  refine keeps_mono (keeps_try hp keeps_lift) (fun decimals past hdecimals => ?_) fun _ _ h => h
  apply keeps_bind
  refine keeps_mono (keeps_try hp keeps_lift) (fun units past hunits => ?_) fun _ _ h => h
  obtain ⟨token, htoken, hterms⟩ := hplan.destinationTerms hread hnet hdecimals hunits
  apply keeps_bind
  refine keeps_mono (keeps_try hp keeps_lift) (fun accounts past _ => ?_) fun _ _ h => h
  apply keeps_bind
  refine keeps_mono (keeps_try hp (keeps_operatorWrite ⟨plan.route, token, hterms⟩))
    (fun settleTx past _ => ?_) fun _ _ h => h
  apply keeps_bind
  refine keeps_mono (keeps_try hp (keeps_transitionStatus hplan.selected rfl))
    (fun row past hrow => ?_) fun _ _ h => h
  refine ⟨hrow.identity, token, hterms, fun net' hnet' => ?_⟩
  rw [hnet, Except.ok.injEq] at hnet'
  exact hnet' ▸ htoken

/-- The payout leg is faithful to what it is handed. -/
theorem keeps_payoutLeg {units : ℕ} {token : Token} (hplan : PlanOf env q plan)
    (hterms : DestinationTerms env q plan.route token units)
    (htoken : ∀ net, env.contracts plan.destNet = .ok net →
      net.tokens plan.destAsset.symbol = some token)
    (hp : identity p = identity q) :
    (faithful env q).Keeps (fun _ _ => True) (Same q) (payoutLeg env plan units p) past := by
  have hdue : ∀ net t, env.contracts plan.destNet = .ok net →
      net.tokens plan.destAsset.symbol = some t → MovesDue env q plan.destNet
        (.transfer .destinationPayout t.address plan.recipientWallet.address units) := by
    intro net t hnet ht
    rw [htoken net hnet, Option.some.injEq] at ht
    exact ⟨plan.route, token, hterms, (Plan.made hplan.made).destNet, ht ▸ rfl⟩
  have hbridge : ∀ {row : Payment} past, identity row = identity q →
      (faithful env q).Keeps (fun row _ => identity row = identity q) (Same q)
        (bridgeLeg env plan units row) past := by
    intro row past hrow
    apply keeps_bind
    refine keeps_mono (keeps_try hrow (keeps_treasuryTokenTransfer hdue))
      (fun hash past _ => ?_) fun _ _ h => h
    have hlocal : identity { row with destinationTxHash := some hash } = identity q := hrow
    apply keeps_bind
    refine keeps_mono (keeps_try hlocal (keeps_call fun _ => ⟨rfl, rfl⟩))
      (fun row past hanswer => ?_) fun _ _ h => h
    have hrow := (hanswer.1 row rfl).identity
    apply keeps_bind
    refine keeps_mono (keeps_try hrow (keeps_amountless (D := []) (does_audit _ _ _) (by simp)))
      (fun _ past _ => ?_) fun _ _ h => h
    apply keeps_bind
    refine keeps_mono (keeps_try hrow (keeps_amountless (D := []) (does_confirm _ _) (by simp)))
      (fun _ past _ => ?_) fun _ _ h => h
    apply keeps_bind
    refine keeps_mono (keeps_try hrow (keeps_amountless (D := []) (does_audit _ _ _) (by simp)))
      (fun _ past _ => ?_) fun _ _ h => h
    exact hrow
  have hpay : ∀ {row : Payment} past, identity row = identity q →
      (faithful env q).Keeps (fun row _ => identity row = identity q) (Same q)
        (payRecipient env plan units row) past := by
    intro row past hrow
    unfold payRecipient
    split
    · exact hbridge past hrow
    · exact hrow
  apply keeps_bind
  refine keeps_mono (keeps_try hp (keeps_transitionStatus (prices_none (by decide) rfl) rfl))
    (fun row past hrow => ?_) fun _ _ h => h
  apply keeps_bind
  refine keeps_mono (hpay past hrow.identity) (fun row past hrow => ?_) fun _ _ h => h
  apply keeps_bind
  refine keeps_mono (keeps_try hrow (keeps_creditRecipient hplan.selected))
    (fun _ past _ => ?_) fun _ _ h => h
  apply keeps_bind
  refine keeps_mono (keeps_try hrow (keeps_amountless (D := []) (does_plain rfl) (by simp)))
    (fun _ past _ => ?_) fun _ _ h => h
  exact keeps_mono (keeps_try hrow (keeps_transitionStatus (prices_none (by decide) rfl) rfl))
    (fun _ _ _ => trivial) fun _ _ h => h

/-- Settling is faithful. -/
theorem keeps_settle {pid : String} {units decimals : ℕ} (hplan : PlanOf env q plan)
    (hread : Readable env plan) (hp : identity p = identity q)
    (hdecimals : Env.decimalsOf plan.sourceToken = .ok decimals)
    (hunits : toBaseUnits q.amount decimals = .ok units) :
    (faithful env q).Keeps (fun _ _ => True) (Same q) (settle env plan pid units p) past := by
  apply keeps_bind
  refine keeps_mono (keeps_escrowLeg hplan hp hdecimals hunits) (fun r past hrow => ?_)
    fun _ _ h => h
  obtain ⟨row, initTx⟩ := r
  apply keeps_bind
  refine keeps_mono (keeps_settlementLeg hplan hread hrow) (fun r past hr => ?_) fun _ _ h => h
  obtain ⟨row, settledUnits⟩ := r
  obtain ⟨hrow, token, hterms, htoken⟩ := hr
  exact keeps_payoutLeg hplan hterms htoken hrow

/-! ## Executions -/

/-- The liquidity is counted in the destination token's decimals. -/
theorem keeps_availableLiquidity {symbol : AssetSymbol} {network : Network} :
    (faithful env q).Keeps (fun liq _ => ∃ net token, env.contracts network = .ok net ∧
        net.tokens symbol = some token ∧ liq.decimals = token.decimals)
      (fun _ _ => True) (availableLiquidity env symbol network) past := by
  unfold availableLiquidity
  cases hnet : env.deployments.networks network with
  | none => trivial
  | some net =>
    have hcontracts : env.contracts network = .ok net := by simp [Env.contracts, hnet]
    apply keeps_bind
    refine keeps_mono keeps_lift (fun token past htoken => ?_) fun _ _ _ => trivial
    apply keeps_bind
    refine keeps_mono (keeps_call fun _ => trivial) (fun _ past _ => ?_) fun _ _ _ => trivial
    refine ⟨net, token, hcontracts, ?_, rfl⟩
    unfold tokenOn at htoken
    split at htoken
    · rename_i t ht
      cases htoken
      exact ht
    · cases htoken

/-- An execution that goes on has read the destination amount. -/
theorem keeps_checkLiquidity :
    (faithful env q).Keeps (fun _ _ => Readable env plan) (fun _ _ => True)
      (checkLiquidity env p plan) past := by
  apply keeps_bind
  refine keeps_mono keeps_availableLiquidity (fun liq past hliq => ?_) fun _ _ _ => trivial
  obtain ⟨net, token, hnet, htoken, hdecimals⟩ := hliq
  apply keeps_bind
  refine keeps_mono keeps_lift (fun units past hunits => ?_) fun _ _ _ => trivial
  split
  · apply keeps_bind
    refine keeps_mono (keeps_amountless (does_setStatus p _ _ (List.mem_singleton_self _) rfl)
      (by decide)) (fun _ _ _ => trivial) fun _ _ _ => trivial
  · exact ⟨net, token, units, hnet, htoken, hdecimals ▸ hunits⟩

/-- The execution proper is faithful to the row it was given. -/
theorem keeps_runExecution_faithful {leaseId : ℕ} (hp : identity p = identity q)
    (hquote : quoteOf p = quoteOf q)
    (hhome : ∀ route, selectedRoute q = .ok route → route.sourceNetwork = q.sourceNetwork) :
    (faithful env q).Keeps (fun _ _ => True) (fun _ _ => True) (runExecution env leaseId p)
      past := by
  apply keeps_bind
  refine keeps_mono keeps_lift (fun plan past hplan => ?_) fun _ _ _ => trivial
  rw [plan_congr hp hquote] at hplan
  have hplan : PlanOf env q plan := ⟨hplan, hhome _ (Plan.made hplan).route⟩
  apply keeps_bind
  refine keeps_mono (keeps_amountless (D := []) (does_alignDestination _ _) (by simp))
    (fun row past _ => ?_) fun _ _ _ => trivial
  apply keeps_bind
  refine keeps_mono (keeps_amountless (does_autoRecall _ _ (List.mem_singleton_self _))
    (by decide)) (fun _ past _ => ?_) fun _ _ _ => trivial
  apply keeps_bind
  refine keeps_mono keeps_checkLiquidity (fun _ past hread => ?_) fun _ _ _ => trivial
  have hreserve : (faithful env q).Keeps (fun _ _ => True) (fun _ _ => True)
      (reserveLiquidity leaseId row plan) past := by
    apply keeps_bind
    refine keeps_mono (keeps_call fun _ => hplan.selected) (fun held past _ => ?_)
      fun _ _ _ => trivial
    split <;> trivial
  apply keeps_bind
  refine keeps_mono hreserve (fun _ past _ => ?_) fun _ _ _ => trivial
  apply keeps_bind
  refine keeps_mono (keeps_transitionStatus (prices_none (by decide) rfl) rfl)
    (fun row past hrow => ?_) fun _ _ _ => trivial
  have hp := hrow.identity
  apply keeps_bind
  refine keeps_mono keeps_lift (fun decimals past hdecimals => ?_) fun _ _ _ => trivial
  apply keeps_bind
  refine keeps_mono keeps_lift (fun units past hunits => ?_) fun _ _ _ => trivial
  have hamount : row.amount = q.amount := by
    simp only [identity, Prod.mk.injEq] at hp
    exact hp.2.2.1
  apply keeps_handle
  exact keeps_mono (keeps_settle hplan hread hp hdecimals (hamount ▸ hunits)) (fun _ _ h => h)
    fun _ _ h => keeps_recover hplan.selected h

/-- A leased section. -/
theorem keeps_withExecutionLease {id : String} {leaseId : ℕ} {status : PaymentStatus}
    {fn : Saga α}
    (hfn : ∀ past, (faithful env q).Keeps (fun _ _ => True) (fun _ _ => True) fn past) :
    (faithful env q).Keeps (fun _ _ => True) (fun _ _ => True)
      (withExecutionLease id leaseId status fn) past := by
  have hrelease : ∀ past, (faithful env q).Keeps (fun _ _ => True) (fun (_ : Err) _ => True)
      ((call (.releaseLease leaseId)).ignoring : Saga Unit) past := fun past =>
    keeps_amountless (does_call (within_deed rfl (List.mem_singleton_self _))).ignoring (by decide)
  apply keeps_bind
  refine keeps_mono (keeps_call fun _ => trivial) (fun claimed past _ => ?_) fun _ _ _ => trivial
  cases claimed with
  | false => trivial
  | true =>
    exact keeps_andFinally (keeps_mono (hfn past) (fun _ past _ => hrelease past)
      fun _ past _ => hrelease past)

/-! ## The requests -/

/-- An execution of an approved payment is faithful. -/
theorem keeps_executePayment_faithful {leaseId : ℕ}
    (hhome : ∀ route, selectedRoute q = .ok route → route.sourceNetwork = q.sourceNetwork) :
    (faithful env q).Keeps (fun _ _ => True) (fun _ _ => True) (executePayment env leaseId)
      past := by
  apply keeps_bind
  refine keeps_mono (keeps_call fun _ => trivial) (fun row past hrow => ?_) fun _ _ _ => trivial
  have hknown := hrow.1 row rfl
  split
  · rename_i hstatus
    apply keeps_withExecutionLease
    intro past
    exact keeps_runExecution_faithful (p := { row with executionLeaseId := some leaseId })
      hknown.identity (hknown.quote (by rw [hstatus]; decide)) hhome
  · trivial

/-- An execution is faithful. -/
theorem keeps_runExecute_faithful {leaseId : ℕ} {actor : String} {routeId : Option String}
    (hhome : ∀ route, selectedRoute q = .ok route → route.sourceNetwork = q.sourceNetwork) :
    (faithful env q).Keeps (fun _ _ => True) (fun _ _ => True)
      (runExecute env leaseId actor routeId) past := by
  have happroved : ∀ past, (faithful env q).Keeps (fun _ _ => True) (fun _ _ => True)
      (executeApproved env leaseId) past := fun past =>
    keeps_handle (keeps_mono (keeps_executePayment_faithful hhome) (fun _ _ _ => trivial)
      fun _ _ _ => keeps_amountless (D := []) (Prog.Uses.bind (does_plain rfl) fun _ => trivial)
        (by simp))
  apply keeps_bind
  refine keeps_mono (keeps_call fun _ => trivial) (fun row past _ => ?_) fun _ _ _ => trivial
  apply keeps_bind
  refine keeps_mono keeps_lift (fun _ past _ => ?_) fun _ _ _ => trivial
  apply keeps_bind
  refine keeps_mono keeps_lift (fun selection past hselection => ?_) fun _ _ _ => trivial
  have hs := routeSelection_status hselection
  split
  · apply keeps_bind
    refine keeps_mono (keeps_amountless (does_complianceGate _ _ hs (List.Subset.refl _))
      (by decide)) (fun row past _ => ?_) fun _ _ _ => trivial
    split
    · exact happroved past
    · trivial
  · split
    · exact happroved past
    · trivial

/-- A repair is faithful. -/
theorem keeps_repairCompensation {leaseId : ℕ} :
    (faithful env q).Keeps (fun _ _ => True) (fun _ _ => True) (repairCompensation env leaseId)
      past := by
  apply keeps_bind
  refine keeps_mono (keeps_call fun _ => trivial) (fun row past hrow => ?_) fun _ _ _ => trivial
  have hknown := hrow.1 row rfl
  have hleased : ∀ past, (faithful env q).Keeps (fun _ _ => True) (fun _ _ => True)
      (repairLeased env leaseId row) past := by
    intro past
    apply keeps_bind
    refine keeps_mono keeps_lift (fun ctx past hctx => ?_) fun _ _ _ => trivial
    apply keeps_bind
    refine keeps_mono (keeps_amountless (D := []) (does_refusePaidRecipient _) (by simp))
      (fun _ past _ => ?_) fun _ _ _ => trivial
    apply keeps_bind
    refine keeps_mono (keeps_amountless (D := []) (does_readEscrow _) (by simp))
      (fun escrow past _ => ?_) fun _ _ _ => trivial
    split
    · trivial
    · split
      · exact keeps_runCompensationTransfer (returnsDue_of_context hknown.identity hctx)
      · trivial
  split
  · trivial
  · split
    · exact keeps_withExecutionLease hleased
    · trivial

/-- What the row says was settled is the amount of the selected route. -/
theorem selected_of_owed {amount : String} (hp : Priced q p)
    (hstatus : p.status = .payoutPending) (h : owedAmount p = .ok amount) :
    Selected q amount := by
  obtain ⟨a, ha, hselected⟩ := hp (by rw [hstatus]; decide)
  rw [owedAmount, ha, Except.ok.injEq] at h
  exact h ▸ hselected

/-- A reconcile is faithful. -/
theorem keeps_reconcileUnresolvedPayment {leaseId : ℕ} :
    (faithful env q).Keeps (fun _ _ => True) (fun _ _ => True)
      (reconcileUnresolvedPayment env leaseId) past := by
  apply keeps_bind
  refine keeps_mono (keeps_call fun _ => trivial) (fun row past hrow => ?_) fun _ _ _ => trivial
  have hpriced := hrow.2 row rfl
  split
  · trivial
  · trivial
  · rename_i hstatus
    split
    · trivial
    · apply keeps_withExecutionLease
      intro past
      apply keeps_bind
      refine keeps_mono (keeps_amountless (D := []) (does_transactionOutcome _ _) (by simp))
        (fun outcome past _ => ?_) fun _ _ _ => trivial
      cases outcome with
      | confirmed =>
        apply keeps_bind
        refine keeps_mono keeps_lift (fun amount past hamount => ?_) fun _ _ _ => trivial
        have hselected : Selected q amount := selected_of_owed hpriced hstatus hamount
        exact keeps_bind (keeps_mono (keeps_completeSettledPayout hselected)
          (fun _ _ _ => trivial) fun _ _ _ => trivial)
      | reverted =>
        exact keeps_amountless (does_awaitCompensation _ _ _ (List.mem_singleton_self _))
          (by decide)
      | absent =>
        exact keeps_amountless (does_awaitCompensation _ _ _ (List.mem_singleton_self _))
          (by decide)
      | unknown =>
        exact keeps_amountless (D := []) (Prog.Uses.bind (does_audit _ _ _) fun _ => trivial)
          (by simp)
  · split
    · trivial
    · exact keeps_withExecutionLease fun past => keeps_amountless
        (does_reconcileCompensation _ _ (List.mem_singleton_self _)) (by decide)
  · trivial

/-- **Every request is faithful.** -/
theorem request_faithful
    (hhome : ∀ route, selectedRoute q = .ok route → route.sourceNetwork = q.sourceNetwork)
    (i : ℕ) (r : Request) :
    (faithful env q).Keeps (fun _ _ => True) (fun _ _ => True) (r.program env i) [] := by
  cases r with
  | execute actor routeId =>
    exact keeps_bind (keeps_mono (keeps_runExecute_faithful hhome) (fun _ _ _ => trivial)
      fun _ _ _ => trivial)
  | repair =>
    exact keeps_bind (keeps_mono keeps_repairCompensation (fun _ _ _ => trivial)
      fun _ _ _ => trivial)
  | reconcile =>
    exact keeps_bind (keeps_mono keeps_reconcileUnresolvedPayment (fun _ _ _ => trivial)
      fun _ _ _ => trivial)
  | cancel actor =>
    exact keeps_amountless (Prog.Uses.bind (does_cancelPayment actor
      (List.mem_singleton_self _)) fun _ => trivial) (by decide)
  | review actor approve note =>
    exact keeps_amountless (Prog.Uses.bind (does_reviewPayment actor approve note
      (List.Subset.refl _)) fun _ => trivial) (by decide)
  | quote actor =>
    exact keeps_amountless (Prog.Uses.bind (does_quotePayment actor
      (List.mem_singleton_self _)) fun _ => trivial) (by decide)

end SettlementOS.Analysis
