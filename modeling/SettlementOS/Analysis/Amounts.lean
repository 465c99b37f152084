import SettlementOS.Analysis.Deeds
import SettlementOS.Analysis.Execution
import SettlementOS.Computation.Trails
import SettlementOS.Model.Units

/-!
# The amounts a request moves

Five places of the program work out an amount from the row's strings: the escrow, the
settlement, the payout, the ledger credit and the compensation. Here is stated what each
statement must write for all of them to agree with the payment as it is in the end, and shown,
function by function, that it does, as long as the rows it is answered are rows of that payment.
-/

set_option autoImplicit false

namespace SettlementOS.Analysis

open SettlementOS.Computation Model Program Law

variable {env : Env} {q p : Payment} {plan : Plan} {past : List (Event sagaEffects)} {α β : Type}

/-! ## Terms -/

/-- The statuses at which the row has the amount that was settled. -/
def pricedStates : List PaymentStatus := [.fxOrSwapCompleted, .payoutPending, .settled]

/-- The amount is that of the route selected on `q`. -/
def Selected (q : Payment) (amount : String) : Prop :=
  ∃ route, selectedRoute q = .ok route ∧ amount = route.estimatedDestinationAmount

/-- Once it is settled, the row has the amount of the route selected on `q`. -/
def Priced (q p : Payment) : Prop :=
  p.status ∈ pricedStates → ∃ a, p.destinationAmount = some a ∧ Selected q a

/-- What is moved out of the sender's wallet for `q`, and back to it. -/
structure SourceTerms (env : Env) (q : Payment) (network : Network) (wallet token : String)
    (units : ℕ) : Prop where
  network : network = q.sourceNetwork
  terms : ∃ asset net t w, assetForCurrency q.sourceCurrency = .ok asset ∧
    env.contracts q.sourceNetwork = .ok net ∧ net.tokens asset.symbol = some t ∧
    walletOnNetwork env.sender.wallets q.sourceNetwork = some w ∧
    token = t.address ∧ wallet = w.address ∧ toBaseUnits q.amount t.decimals = .ok units

/-- The destination token of `q`. -/
def DestinationToken (env : Env) (q : Payment) (route : RouteOption) (token : Token) : Prop :=
  ∃ asset net, assetForCurrency q.destinationCurrency = .ok asset ∧
    env.contracts route.destinationNetwork = .ok net ∧ net.tokens asset.symbol = some token

/-- What is settled for `q`, and paid out. -/
structure DestinationTerms (env : Env) (q : Payment) (route : RouteOption) (token : Token)
    (units : ℕ) : Prop where
  selected : selectedRoute q = .ok route
  deployed : DestinationToken env q route token
  read : toBaseUnits route.estimatedDestinationAmount token.decimals = .ok units
  exact : ExactUnits route.estimatedDestinationAmount token.decimals units

/-- There is one way to move something out of the sender's wallet. -/
theorem SourceTerms.unique {network network' : Network} {wallet wallet' token token' : String}
    {units units' : ℕ} (h : SourceTerms env q network wallet token units)
    (h' : SourceTerms env q network' wallet' token' units') :
    network' = network ∧ wallet' = wallet ∧ token' = token ∧ units' = units := by
  obtain ⟨asset, net, t, w, ha, hn, ht, hw, rfl, rfl, hu⟩ := h.terms
  obtain ⟨asset', net', t', w', ha', hn', ht', hw', rfl, rfl, hu'⟩ := h'.terms
  rw [ha, Except.ok.injEq] at ha'
  rw [hn, Except.ok.injEq] at hn'
  subst ha' hn'
  rw [ht, Option.some.injEq] at ht'
  rw [hw, Option.some.injEq] at hw'
  subst ht' hw'
  rw [hu, Except.ok.injEq] at hu'
  exact ⟨h'.network.trans h.network.symm, rfl, rfl, hu'.symm⟩

/-- There is one amount to settle. -/
theorem DestinationTerms.unique {route route' : RouteOption} {token token' : Token}
    {units units' : ℕ} (h : DestinationTerms env q route token units)
    (h' : DestinationTerms env q route' token' units') :
    route' = route ∧ token' = token ∧ units' = units := by
  have hroute := h'.selected
  rw [h.selected, Except.ok.injEq] at hroute
  subst hroute
  obtain ⟨asset, net, ha, hn, ht⟩ := h.deployed
  obtain ⟨asset', net', ha', hn', ht'⟩ := h'.deployed
  rw [ha, Except.ok.injEq] at ha'
  rw [hn, Except.ok.injEq] at hn'
  subst ha' hn'
  rw [ht, Option.some.injEq] at ht'
  subst ht'
  have hunits := h'.read
  rw [h.read, Except.ok.injEq] at hunits
  exact ⟨rfl, rfl, hunits.symm⟩

/-! ## The law -/

/-- The row an event answered. -/
def rowOf : Event sagaEffects → Option Payment
  | ⟨.findPayment, .ok row⟩ => some row
  | ⟨.updatePayment _, .ok row⟩ => some row
  | ⟨.transition _ _ _, .ok row⟩ => row
  | _ => none

/-- The row an event read. -/
def readRow : Event sagaEffects → Option Payment
  | ⟨.findPayment, .ok row⟩ => some row
  | _ => none

/-- A row on the way to `q`. -/
structure RowOf (q p : Payment) : Prop where
  identity : identity p = identity q
  quote : 2 ≤ p.status.rank → quoteOf p = quoteOf q

/-- What a status change writes of the amount. -/
def Prices (q : Payment) (next : PaymentStatus) (data : PaymentPatch) : Prop :=
  match data.destinationAmount with
  | some amount => Selected q amount
  | none => next ≠ .fxOrSwapCompleted

/-- A transaction that moves money moves what is due for `q`. -/
def MovesDue (env : Env) (q : Payment) (network : Network) : Call → Prop
  | .initiatePayment _ sender _ asset units _ _ => SourceTerms env q network sender asset units
  | .settlePayment _ _ _ units _ => ∃ route token, DestinationTerms env q route token units
  | .transfer .destinationPayout address _ units => ∃ route token,
      DestinationTerms env q route token units ∧ network = route.destinationNetwork ∧
        address = token.address
  | .transfer .compensation address recipient units =>
    SourceTerms env q network recipient address units
  | _ => True

/-- What is performed agrees with `q`. -/
def Faithful (env : Env) (q : Payment) : Event sagaEffects → Prop
  | ⟨.reserve _ _ _ amount, _⟩ => Selected q amount
  | ⟨.createLedgerCredit credit, _⟩ => Selected q credit.amount
  | ⟨.transition status next opts, _⟩ => opts.data.status.getD next ∈ pricedStates →
      opts.data.status = none ∧ canTransition status next = true ∧ Prices q next opts.data
  | ⟨.updatePayment data, _⟩ => data.status = none ∧ data.destinationAmount = none
  | ⟨.writeContract network call, _⟩ => MovesDue env q network call
  | _ => True

/-- Whoever is answered rows on the way to `q` performs what agrees with `q`. -/
def faithful (env : Env) (q : Payment) : Law sagaEffects where
  Answers o a := (∀ row, rowOf ⟨o, a⟩ = some row → RowOf q row) ∧
    ∀ row, readRow ⟨o, a⟩ = some row → Priced q row
  Allows _ e := Faithful env q e

/-! ## Programs that have no amount to work out -/

/-- A deed that says nothing of an amount. -/
def amountless : Deed → Bool
  | .reserve | .credit | .amend => false
  | .send k => k = .approve || k = .refund
  | .move s => !pricedStates.contains s
  | _ => true

/-- Deeds that say nothing of an amount are faithful. -/
theorem faithful_of_within {ds : List Deed} {o : Stmt} (ho : Within ds o)
    (hds : ∀ d ∈ ds, amountless d = true) (r : Except Err o.Result) :
    Faithful env q ⟨o, r⟩ := by
  have hdeed : ∀ d, deedOf o = some d → amountless d = true := fun d hd => hds d (ho d hd)
  cases o with
  | reserve leaseId asset network amount => exact absurd (hdeed .reserve rfl) (by decide)
  | createLedgerCredit credit => exact absurd (hdeed .credit rfl) (by decide)
  | transition status next opts =>
    intro hnext
    by_cases hlegal : (canTransition status next && opts.data.status.isNone) = true
    · have hmove : amountless (.move next) = true := hdeed _ (if_pos hlegal)
      rw [Bool.and_eq_true, Option.isNone_iff_eq_none] at hlegal
      rw [hlegal.2] at hnext
      simp [amountless, show next ∈ pricedStates from hnext] at hmove
    · exact absurd (hdeed .amend (if_neg hlegal)) (by decide)
  | updatePayment data =>
    by_cases hplain : (data.status.isNone && data.destinationAmount.isNone) = true
    · rw [Bool.and_eq_true, Option.isNone_iff_eq_none, Option.isNone_iff_eq_none] at hplain
      exact hplain
    · exact absurd (hdeed .amend (if_neg hplain)) (by decide)
  | writeContract network call =>
    have hsend : amountless (.send call.kind) = true := hdeed _ rfl
    cases call with
    | approve token owner spender amount => trivial
    | failAndRefund id reason => trivial
    | transfer leg token recipient amount =>
      cases leg <;> exact absurd hsend (by simp [amountless, Call.kind])
    | _ => exact absurd hsend (by simp [amountless, Call.kind])
  | _ => trivial

/-- A program with no amounts keeps the law. -/
theorem keeps_amountless {ε : Type} {D : List Deed} {prog : Prog sagaEffects ε α}
    (h : prog.Uses (Within D)) (hD : ∀ d ∈ D, amountless d = true) :
    (faithful env q).Keeps (fun _ _ => True) (fun _ _ => True) prog past :=
  keeps_of_uses (P := fun _ => True)
    (fun _ _ r ho _ _ => ⟨faithful_of_within ho hD r, trivial⟩) h trivial

/-! ## Single statements -/

/-- One statement that agrees with `q`. -/
theorem keeps_call {o : Stmt} (hF : ∀ r, Faithful env q ⟨o, r⟩) :
    (faithful env q).Keeps (fun a _ => (faithful env q).Answers o (.ok a)) (fun _ _ => True)
      (call o) past := by
  intro r hr
  refine ⟨hF r, ?_⟩
  cases r with
  | ok a => exact hr
  | error e => trivial

/-- A computation goes on with its value. -/
theorem keeps_lift {x : Except Err α} :
    (faithful env q).Keeps (fun a _ => x = .ok a) (fun _ _ => True) (lift x) past :=
  keeps_ofExcept (fun _ h => h) fun _ _ => trivial

/-- A status change that writes the amount of the selected route is faithful. -/
theorem keeps_transitionStatus {next : PaymentStatus} {opts : TransitionOpts}
    (hF : Prices q next opts.data) (hs : opts.data.status = none) :
    (faithful env q).Keeps (fun row _ => RowOf q row) (fun _ _ => True)
      (transitionStatus p next opts) past := by
  unfold transitionStatus
  split
  · rename_i hcan
    apply keeps_bind
    refine keeps_mono (keeps_call fun _ _ => ⟨hs, hcan, hF⟩) ?_ fun _ _ _ => trivial
    intro row past h
    cases row with
    | none => trivial
    | some row => exact h.1 row rfl
  · trivial

/-- A status change that writes no amount, and is not the one that should. -/
theorem prices_none {next : PaymentStatus} {data : PaymentPatch}
    (hnext : next ≠ .fxOrSwapCompleted) (hdata : data.destinationAmount = none) :
    Prices q next data := by
  unfold Prices
  rw [hdata]
  exact hnext

/-- An operator's write that moves what is due is faithful. -/
theorem keeps_operatorWrite {network : Network} {c : Call} (hc : MovesDue env q network c) :
    (faithful env q).Keeps (fun _ _ => True) (fun _ _ => True) (operatorWrite env network c)
      past := by
  have hsend : ∀ past, (faithful env q).Keeps (fun _ _ => True) (fun _ _ => True)
      ((lift (env.contracts network)).bind fun _ => call (.writeContract network c)) past := by
    intro past
    apply keeps_bind
    refine keeps_mono keeps_lift (fun _ past _ => ?_) fun _ _ _ => trivial
    exact keeps_mono (keeps_call fun _ => hc) (fun _ _ _ => trivial) fun _ _ _ => trivial
  have hretry : ∀ retries past, (faithful env q).Keeps (fun _ _ => True) (fun _ _ => True)
      (retryOnReplicaLag ((lift (env.contracts network)).bind fun _ =>
        call (.writeContract network c)) (replicaLagMessage c) retries) past := by
    intro retries
    induction retries with
    | zero => exact hsend
    | succ retries ih =>
      intro past
      apply keeps_handle
      refine keeps_mono (hsend past) (fun _ _ _ => trivial) fun e past _ => ?_
      split
      · exact ih past
      · trivial
  apply keeps_bind
  refine keeps_mono keeps_lift (fun _ past _ => ?_) fun _ _ _ => trivial
  apply keeps_bind
  refine keeps_mono keeps_lift (fun retries past _ => ?_) fun _ _ _ => trivial
  apply keeps_bind
  refine keeps_mono (hretry retries past) (fun hash past _ => ?_) fun _ _ _ => trivial
  exact keeps_amountless (D := []) (does_confirm _ _) (by simp)

/-- A transfer of the treasury that moves what is due is faithful. -/
theorem keeps_treasuryTokenTransfer {leg : Leg} {network : Network} {symbol : AssetSymbol}
    {recipient : String} {units : ℕ}
    (h : ∀ net token, env.contracts network = .ok net → net.tokens symbol = some token →
      MovesDue env q network (.transfer leg token.address recipient units)) :
    (faithful env q).Keeps (fun _ _ => True) (fun _ _ => True)
      (treasuryTokenTransfer env leg network symbol recipient units) past := by
  apply keeps_bind
  refine keeps_mono keeps_lift (fun net past hnet => ?_) fun _ _ _ => trivial
  apply keeps_bind
  refine keeps_mono keeps_lift (fun token past htoken => ?_) fun _ _ _ => trivial
  apply keeps_bind
  refine keeps_mono keeps_lift (fun _ past _ => ?_) fun _ _ _ => trivial
  have hdeployed : net.tokens symbol = some token := by
    unfold tokenOn at htoken
    split at htoken
    · rename_i t ht
      cases htoken
      exact ht
    · cases htoken
  exact keeps_mono (keeps_call fun _ => h net token hnet hdeployed) (fun _ _ _ => trivial)
    fun _ _ _ => trivial

/-! ## Completing -/

/-- The credit of the selected route's amount is faithful. -/
theorem keeps_creditRecipient {amount : String} (h : Selected q amount) :
    (faithful env q).Keeps (fun _ _ => True) (fun _ _ => True) (creditRecipient p amount) past := by
  apply keeps_bind
  refine keeps_mono (keeps_call fun _ => h) (fun _ past _ => ?_) fun _ _ _ => trivial
  exact keeps_amountless (D := []) (does_audit _ _ _) (by simp)

/-- So is completing a payout with it. -/
theorem keeps_completeSettledPayout {amount reason : String} {evidence : Evidence}
    (h : Selected q amount) :
    (faithful env q).Keeps (fun _ _ => True) (fun _ _ => True)
      (completeSettledPayout p amount reason evidence) past := by
  have hcredit : ∀ past, (faithful env q).Keeps (fun _ _ => True) (fun _ _ => True)
      (creditOnce p amount) past := by
    intro past
    apply keeps_bind
    refine keeps_mono (keeps_call fun _ => trivial) (fun credit past _ => ?_) fun _ _ _ => trivial
    cases credit with
    | some credit => trivial
    | none => exact keeps_creditRecipient h
  apply keeps_bind
  refine keeps_mono (hcredit past) (fun _ past _ => ?_) fun _ _ _ => trivial
  apply keeps_bind
  refine keeps_mono (keeps_amountless (D := []) (does_plain rfl).ignoring (by simp))
    (fun _ past _ => ?_) fun _ _ _ => trivial
  apply keeps_bind
  refine keeps_mono (keeps_amountless (D := []) (does_audit _ _ _) (by simp))
    (fun _ past _ => ?_) fun _ _ _ => trivial
  exact keeps_mono (keeps_transitionStatus (prices_none (by decide) rfl) rfl) (fun _ _ _ => trivial)
    fun _ _ _ => trivial

/-- So is reconciling one with it. -/
theorem keeps_reconcileDestinationPayout {network : Network} {amount reason : String}
    (h : Selected q amount) :
    (faithful env q).Keeps (fun _ _ => True) (fun _ _ => True)
      (reconcileDestinationPayout p network amount reason) past := by
  unfold reconcileDestinationPayout
  split
  · trivial
  · apply keeps_bind
    refine keeps_mono (keeps_amountless (D := []) (does_transactionOutcome _ _) (by simp))
      (fun outcome past _ => ?_) fun _ _ _ => trivial
    cases outcome with
    | confirmed => exact keeps_bind (keeps_completeSettledPayout h)
    | unknown =>
      exact keeps_bind (keeps_mono (keeps_amountless (D := []) (does_audit _ _ _) (by simp))
        (fun _ _ _ => trivial) fun _ _ _ => trivial)
    | absent => trivial
    | reverted => trivial

/-! ## Compensation -/

/-- A compensation by this context moves what was taken for `q`. -/
def ReturnsDue (env : Env) (q : Payment) (ctx : CompensationContext) : Prop :=
  ∀ net token, env.contracts ctx.network = .ok net → net.tokens ctx.tokenSymbol = some token →
    SourceTerms env q ctx.network ctx.sender token.address ctx.amountUnits

/-- A compensation is worked out from the row as it will be in the end. -/
theorem returnsDue_of_context {ctx : CompensationContext} (hp : identity p = identity q)
    (h : compensationContextFor env p = .ok ctx) : ReturnsDue env q ctx := by
  simp only [identity, Prod.mk.injEq] at hp
  obtain ⟨-, -, hamount, hcurrency, -, hnetwork⟩ := hp
  unfold compensationContextFor at h
  rw [hcurrency, hnetwork, hamount] at h
  cases ha : assetForCurrency q.sourceCurrency with
  | error e => simp [ha, bind, Except.bind] at h
  | ok asset =>
    cases hn : env.contracts q.sourceNetwork with
    | error e => simp [ha, hn, bind, Except.bind] at h
    | ok net =>
      simp only [ha, hn, bind, Except.bind] at h
      split at h
      · cases h
      · rename_i w hw
        cases ht : net.tokens asset.symbol with
        | none => simp [ht, Env.decimalsOf] at h
        | some t =>
          cases hu : toBaseUnits q.amount t.decimals with
          | error e => simp [ht, Env.decimalsOf, hu] at h
          | ok units =>
            simp only [ht, Env.decimalsOf, hu, pure, Except.pure, Except.ok.injEq] at h
            subst h
            intro net' token hnet' htoken
            rw [hn, Except.ok.injEq] at hnet'
            subst hnet'
            rw [ht, Option.some.injEq] at htoken
            subst htoken
            exact ⟨rfl, asset, net, t, w, ha, hn, ht, hw, rfl, rfl, hu⟩

/-- A compensation that returns what was taken is faithful. -/
theorem keeps_runCompensationTransfer {ctx : CompensationContext} (h : ReturnsDue env q ctx) :
    (faithful env q).Keeps (fun _ _ => True) (fun _ _ => True)
      (runCompensationTransfer env p ctx) past := by
  have hsend : ∀ past, (faithful env q).Keeps (fun _ _ => True) (fun _ _ => True)
      (sendCompensation env p ctx) past := by
    intro past
    apply keeps_bind
    apply keeps_keeping
    refine keeps_mono (keeps_treasuryTokenTransfer h) (fun hash past _ => ?_) fun _ _ _ => trivial
    have hrest : (((call (.updatePayment { compensationTxHash := some hash })).keeping
        { p with compensationTxHash := some hash }).bind fun row =>
        ((audit "payment.compensation_submitted" (ctx.detail hash) row.id).keeping row).bind
          fun _ => ((confirm ctx.network hash).keeping row).bind fun _ =>
        ((audit "payment.compensation_transfer" (ctx.detail hash) row.id).keeping row).bind
          fun _ => (transitionStatus row .compensated
            { data := { compensationTxHash := some hash }
              detail := [("network", .str ctx.network), ("txHash", .hash hash)] }).keeping
            row).Uses (Within [.move .compensated]) :=
      Prog.Uses.bind (does_plain rfl).keeping fun _ =>
        Prog.Uses.bind (does_audit _ _ _).keeping fun _ =>
        Prog.Uses.bind (does_confirm _ _).keeping fun _ =>
        Prog.Uses.bind (does_audit _ _ _).keeping fun _ =>
        (does_transitionStatus _ _ (List.mem_singleton_self _) rfl).keeping
    exact keeps_amountless hrest (by decide)
  have htransfer : ∀ past, (faithful env q).Keeps (fun _ _ => True) (fun _ _ => True)
      ((sendCompensation env p ctx).handle (recoverCompensation ctx)) past := fun past =>
    keeps_handle (keeps_mono (hsend past) (fun _ _ _ => trivial) fun e _ _ =>
      keeps_amountless (does_recoverCompensation ctx e (List.mem_singleton_self _)) (by decide))
  unfold runCompensationTransfer
  cases p.compensationTxHash with
  | none => exact htransfer past
  | some prior =>
    apply keeps_bind
    refine keeps_mono (keeps_amountless (D := []) (does_transactionOutcome _ _) (by simp))
      (fun outcome past _ => ?_) fun _ _ _ => trivial
    cases outcome with
    | confirmed =>
      exact keeps_amountless (does_completeCompensationFromConfirmed _ _ _
        (List.mem_singleton_self _)) (by decide)
    | unknown =>
      exact keeps_amountless (D := []) (Prog.Uses.bind (does_audit _ _ _) fun _ => trivial)
        (by simp)
    | reverted => exact htransfer past
    | absent => exact htransfer past

/-! ## The `catch` of an execution -/

/-- Undoing is faithful. -/
theorem keeps_undo {network : Network} {pid reason : String} (hp : identity p = identity q) :
    (faithful env q).Keeps (fun _ _ => True) (fun _ _ => True) (undo env network pid reason p)
      past := by
  unfold undo
  apply keeps_bind
  refine keeps_mono (keeps_amountless (D := []) (does_plain rfl).ignoring (by simp))
    (fun _ past _ => ?_) fun _ _ _ => trivial
  apply keeps_bind
  refine keeps_mono (keeps_amountless (D := []) (does_readEscrow _) (by simp))
    (fun escrow past _ => ?_) fun _ _ _ => trivial
  split
  · apply keeps_bind
    refine keeps_mono keeps_lift (fun ctx past hctx => ?_) fun _ _ _ => trivial
    have hdue : ReturnsDue env q ctx := returnsDue_of_context hp hctx
    have hdue' : ReturnsDue env q { ctx with reason := reason } := hdue
    apply keeps_bind
    refine keeps_mono (keeps_transitionStatus (prices_none (by decide) rfl) rfl)
      (fun row past _ => ?_) fun _ _ _ => trivial
    exact keeps_runCompensationTransfer hdue'
  · split
    · exact keeps_amountless (does_refundOrFail _ _ _ _ (List.Subset.refl _)) (by decide)
    · exact keeps_amountless (does_endFailed _ _ (List.mem_singleton_self _)) (by decide)

/-- The recovery is faithful. -/
theorem keeps_recover {pid : String} {e : Err × Payment} (hamount : Selected q plan.destAmount)
    (he : identity e.2 = identity q) :
    (faithful env q).Keeps (fun _ _ => True) (fun _ _ => True) (recover env plan pid e) past := by
  apply keeps_bind
  refine keeps_mono (keeps_call fun _ => trivial) (fun credit past _ => ?_) fun _ _ _ => trivial
  cases credit with
  | some credit => exact keeps_completeSettledPayout hamount
  | none =>
    apply keeps_bind
    refine keeps_mono (keeps_reconcileDestinationPayout hamount) (fun done past _ => ?_)
      fun _ _ _ => trivial
    cases done with
    | some row => trivial
    | none => exact keeps_undo he

end SettlementOS.Analysis
