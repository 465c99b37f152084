import SettlementOS.Analysis.Amounts
import SettlementOS.Analysis.Recording

/-!
# A credit and its event

Whoever credits the recipient says so with his next statement, and nobody says so otherwise: this
law every request keeps. The row it works on is the payment's, so the event names the payment.
-/

set_option autoImplicit false

namespace SettlementOS.Analysis

open SettlementOS.Computation Model Program Law

/-- The event of a credit. -/
def creditRecord (id : String) (credit : LedgerCredit) : AuditRecord where
  action := "payout.ledger_credit"
  actor := "system"
  paymentId := some id
  detail := [("entityId", .str credit.entityId), ("currency", .str credit.currency),
    ("amount", .str credit.amount)]

/-- The credit a trail ends with, whose event is still to come. -/
def untold : List (Event sagaEffects) → Option LedgerCredit
  | ⟨.createLedgerCredit credit, .ok _⟩ :: _ => some credit
  | _ => none

/-- After a credit comes its event, and it comes nowhere else. -/
def crediting (id : String) : Law sagaEffects where
  Answers o a := ∀ row, rowOf ⟨o, a⟩ = some row → row.id = id
  Allows past e :=
    match untold past with
    | some credit => e.stmt = .audit (creditRecord id credit)
    | none => Mundane e.stmt ∨ ∃ credit, e.stmt = .createLedgerCredit credit

/-- No event is still to come. -/
def Told (past : List (Event sagaEffects)) : Prop := untold past = none

/-- An error, with a row of the payment. -/
def ThrownWith (id : String) (e : Err × Payment) (past : List (Event sagaEffects)) : Prop :=
  e.2.id = id ∧ Told past

variable {env : Env} {id : String} {p : Payment} {plan : Plan} {past : List (Event sagaEffects)}
  {α : Type}

/-- After a mundane statement no event is still to come. -/
theorem told_of_mundane {o : Stmt} {r : Except Err o.Result} (h : Mundane o) :
    Told (⟨o, r⟩ :: past) := by
  cases o with
  | createLedgerCredit credit => exact h.elim
  | _ => rfl

/-- A mundane statement may follow where no event is still to come. -/
theorem allows_mundane {o : Stmt} {r : Except Err o.Result} (hpast : Told past) (h : Mundane o) :
    (crediting id).Allows past ⟨o, r⟩ := by
  have htold : untold past = none := hpast
  simp only [crediting, htold]
  exact .inl h

/-! ## Mundane programs -/

/-- A mundane program keeps the law. -/
theorem credits_mundane {ε : Type} {prog : Prog sagaEffects ε α} (h : prog.Uses Mundane)
    (hpast : Told past) :
    (crediting id).Keeps (fun _ => Told) (fun _ => Told) prog past :=
  keeps_of_uses (fun _ _ _ ho hp _ => ⟨allows_mundane hp ho, told_of_mundane ho⟩) h hpast

/-- A mundane statement keeps the law, and a row it answers with is the payment's. -/
theorem credits_call {o : Stmt} (h : Mundane o) (hpast : Told past) :
    (crediting id).Keeps
      (fun r past => (∀ row, rowOf ⟨o, .ok r⟩ = some row → row.id = id) ∧ Told past)
      (fun _ => Told) (call o) past := by
  intro r hr
  refine ⟨allows_mundane hpast h, ?_⟩
  cases r with
  | ok a => exact ⟨hr, told_of_mundane h⟩
  | error e => exact told_of_mundane h

/-- To throw or to go on with a value keeps the law. -/
theorem credits_lift {x : Except Err α} (hpast : Told past) :
    (crediting id).Keeps (fun _ => Told) (fun _ => Told) (lift x) past :=
  keeps_ofExcept (fun _ _ => hpast) fun _ _ => hpast

/-- A plain status change keeps the law, and answers with the payment's row. -/
theorem credits_transitionStatus {next : PaymentStatus} {opts : TransitionOpts}
    (h : PlainChange next opts) (hpast : Told past) :
    (crediting id).Keeps (fun row past => row.id = id ∧ Told past) (fun _ => Told)
      (transitionStatus p next opts) past := by
  unfold transitionStatus
  split
  · rename_i hcan
    have hmundane : Mundane (.transition p.status next opts) := ⟨hcan, h⟩
    refine keeps_seq (credits_call hmundane hpast) fun r past hr => ?_
    cases r with
    | none => exact hr.2
    | some row => exact ⟨hr.1 row rfl, hr.2⟩
  · exact hpast

/-- So does one that writes columns along with it. -/
theorem credits_setStatus {next : PaymentStatus} {data : PaymentPatch} {detail : Detail}
    (h : data.status = none) (hpast : Told past) :
    (crediting id).Keeps (fun row past => row.id = id ∧ Told past) (fun _ => Told)
      (setStatus p next data detail) past :=
  credits_transitionStatus (plainChange_unnamed h rfl) hpast

/-- The row that is read is the payment's. -/
theorem credits_findPayment (hpast : Told past) :
    (crediting id).Keeps (fun row past => row.id = id ∧ Told past) (fun _ => Told)
      (call .findPayment) past :=
  keeps_mono (credits_call trivial hpast) (fun row _ h => ⟨h.1 row rfl, h.2⟩) fun _ _ h => h

/-- Part of a `try` whose handler is given the row. -/
theorem credits_keeping {Q : α → List (Event sagaEffects) → Prop} {prog : Saga α}
    (hp : p.id = id) (h : (crediting id).Keeps Q (fun _ => Told) prog past) :
    (crediting id).Keeps Q (ThrownWith id) (prog.keeping p) past :=
  keeps_keeping (keeps_mono h (fun _ _ h => h) fun _ _ h => ⟨hp, h⟩)

/-- A mundane part of it. -/
theorem credits_meanwhile {prog : Saga α} (h : prog.Uses Mundane) (hp : p.id = id)
    (hpast : Told past) :
    (crediting id).Keeps (fun _ => Told) (ThrownWith id) (prog.keeping p) past :=
  credits_keeping hp (credits_mundane h hpast)

/-! ## Crediting -/

/-- The credit of an execution is followed by its event. -/
theorem credits_creditRecipient {amount : String} (hp : p.id = id) (hpast : Told past) :
    (crediting id).Keeps (fun _ => Told) (fun _ => Told) (creditRecipient p amount) past := by
  have htold : untold past = none := hpast
  intro r _
  refine ⟨?_, ?_⟩
  · simp only [crediting, htold]
    exact .inr ⟨_, rfl⟩
  · cases r with
    | error e => rfl
    | ok a =>
      intro r' _
      subst hp
      refine ⟨rfl, ?_⟩
      cases r' <;> rfl

/-- So is the credit of a payout that went through. -/
theorem credits_completeSettledPayout {amount reason : String} {evidence : Evidence}
    (hp : p.id = id) (hpast : Told past) :
    (crediting id).Keeps (fun _ => Told) (fun _ => Told)
      (completeSettledPayout p amount reason evidence) past := by
  have honce : (crediting id).Keeps (fun _ => Told) (fun _ => Told) (creditOnce p amount)
      past := by
    refine keeps_seq (credits_call trivial hpast) fun credit past h => ?_
    cases credit with
    | some credit => exact h.2
    | none => exact credits_creditRecipient hp h.2
  refine keeps_seq honce fun _ past htold => credits_mundane ?_ htold
  exact Prog.Uses.bind (mundane_plain rfl).ignoring fun _ =>
    Prog.Uses.bind (mundane_audit rfl) fun _ => mundane_setStatus _ _ _ rfl

/-- Reconciling a payout keeps the law, whatever the chain says. -/
theorem credits_reconcileDestinationPayout {network : Network} {amount reason : String}
    (hp : p.id = id) (hpast : Told past) :
    (crediting id).Keeps (fun _ => Told) (fun _ => Told)
      (reconcileDestinationPayout p network amount reason) past := by
  unfold reconcileDestinationPayout
  split
  · exact hpast
  · refine keeps_seq (credits_mundane (mundane_transactionOutcome _ _) hpast)
      fun outcome past htold => ?_
    cases outcome with
    | confirmed =>
      exact keeps_seq (credits_completeSettledPayout hp htold) fun _ _ h => h
    | unknown => exact keeps_seq (credits_mundane (mundane_audit rfl) htold) fun _ _ h => h
    | absent => exact htold
    | reverted => exact htold

/-! ## The legs of an execution -/

/-- The escrow leg keeps the law, and hands on the payment's row whether it throws or not. -/
theorem credits_escrowLeg {pid : String} {units : ℕ} (hp : p.id = id) (hpast : Told past) :
    (crediting id).Keeps (fun r past => r.1.id = id ∧ Told past) (ThrownWith id)
      (escrowLeg env plan pid units p) past := by
  refine keeps_seq (credits_meanwhile (mundane_grantAllowance _ _ _) hp hpast)
    fun _ past htold => ?_
  refine keeps_seq (credits_meanwhile (mundane_lift _) hp htold) fun asset past htold => ?_
  refine keeps_seq (credits_meanwhile (mundane_operatorWrite _ _) hp htold)
    fun initTx past htold => ?_
  exact keeps_seq (credits_keeping hp (credits_setStatus rfl htold)) fun row past hrow => hrow

/-- So does the settlement leg. -/
theorem credits_settlementLeg {pid : String} {initTx : TxResult} (hp : p.id = id)
    (hpast : Told past) :
    (crediting id).Keeps (fun r past => r.1.id = id ∧ Told past) (ThrownWith id)
      (settlementLeg env plan pid initTx p) past := by
  refine keeps_seq (credits_keeping hp (credits_setStatus rfl hpast)) fun row past hrow => ?_
  obtain ⟨hp, htold⟩ := hrow
  refine keeps_seq (credits_meanwhile (mundane_lift _) hp htold) fun _ past htold => ?_
  refine keeps_seq (credits_meanwhile (mundane_lift _) hp htold) fun _ past htold => ?_
  refine keeps_seq (credits_meanwhile (mundane_lift _) hp htold) fun _ past htold => ?_
  refine keeps_seq (credits_meanwhile (mundane_lift _) hp htold) fun _ past htold => ?_
  refine keeps_seq (credits_meanwhile (mundane_operatorWrite _ _) hp htold)
    fun settleTx past htold => ?_
  exact keeps_seq (credits_keeping hp (credits_setStatus rfl htold)) fun row past hrow => hrow

/-- So does the payment of the recipient. -/
theorem credits_payRecipient {units : ℕ} (hp : p.id = id) (hpast : Told past) :
    (crediting id).Keeps (fun row past => row.id = id ∧ Told past) (ThrownWith id)
      (payRecipient env plan units p) past := by
  unfold payRecipient
  split
  · refine keeps_seq (credits_meanwhile (mundane_treasuryTokenTransfer _ _ _ _ _) hp hpast)
      fun hash past htold => ?_
    have hlocal : ({ p with destinationTxHash := some hash } : Payment).id = id := hp
    refine keeps_seq (credits_keeping hlocal (credits_call rfl htold)) fun row past h => ?_
    obtain ⟨hrow, htold⟩ := h
    have hp := hrow row rfl
    refine keeps_seq (credits_meanwhile (mundane_audit rfl) hp htold) fun _ past htold => ?_
    refine keeps_seq (credits_meanwhile (mundane_confirm _ _) hp htold) fun _ past htold => ?_
    exact keeps_seq (credits_meanwhile (mundane_audit rfl) hp htold) fun _ past htold => ⟨hp, htold⟩
  · exact ⟨hp, hpast⟩

/-- The payout leg keeps the law. -/
theorem credits_payoutLeg {units : ℕ} (hp : p.id = id) (hpast : Told past) :
    (crediting id).Keeps (fun _ => Told) (ThrownWith id) (payoutLeg env plan units p) past := by
  refine keeps_seq (credits_keeping hp (credits_setStatus rfl hpast)) fun row past hrow => ?_
  refine keeps_seq (credits_payRecipient hrow.1 hrow.2) fun row past hrow => ?_
  obtain ⟨hp, htold⟩ := hrow
  refine keeps_seq (credits_keeping hp (credits_creditRecipient hp htold)) fun _ past htold => ?_
  refine keeps_seq (credits_meanwhile (mundane_plain rfl) hp htold) fun _ past htold => ?_
  exact credits_meanwhile (mundane_setStatus _ _ _ rfl) hp htold

/-- Settling keeps the law. -/
theorem credits_settle {pid : String} {units : ℕ} (hp : p.id = id) (hpast : Told past) :
    (crediting id).Keeps (fun _ => Told) (ThrownWith id) (settle env plan pid units p) past := by
  refine keeps_seq (credits_escrowLeg hp hpast) fun r past hr => ?_
  obtain ⟨row, initTx⟩ := r
  refine keeps_seq (credits_settlementLeg hr.1 hr.2) fun r past hr => ?_
  obtain ⟨row, settledUnits⟩ := r
  exact credits_payoutLeg hr.1 hr.2

/-- The recovery of a thrown error keeps the law. -/
theorem credits_recover {pid : String} {e : Err × Payment} (h : ThrownWith id e past) :
    (crediting id).Keeps (fun _ => Told) (fun _ => Told) (recover env plan pid e) past := by
  refine keeps_seq (credits_call trivial h.2) fun credit past hfound => ?_
  cases credit with
  | some credit => exact credits_completeSettledPayout h.1 hfound.2
  | none =>
    refine keeps_seq (credits_reconcileDestinationPayout h.1 hfound.2)
      fun reconciled past htold => ?_
    cases reconciled with
    | some row => exact htold
    | none => exact credits_mundane (mundane_undo _ _ _ _) htold

/-! ## Requests -/

/-- Aligning the destination keeps the law. -/
theorem credits_alignDestination {network : Network} (hp : p.id = id) (hpast : Told past) :
    (crediting id).Keeps (fun row past => row.id = id ∧ Told past) (fun _ => Told)
      (alignDestination p network) past := by
  unfold alignDestination
  split
  · exact keeps_mono (credits_call rfl hpast) (fun row _ h => ⟨h.1 row rfl, h.2⟩) fun _ _ h => h
  · exact ⟨hp, hpast⟩

/-- The execution proper keeps the law. -/
theorem credits_runExecution {leaseId : ℕ} (hp : p.id = id) (hpast : Told past) :
    (crediting id).Keeps (fun _ => Told) (fun _ => Told) (runExecution env leaseId p) past := by
  refine keeps_seq (credits_lift hpast) fun plan past htold => ?_
  refine keeps_seq (credits_alignDestination hp htold) fun row past hrow => ?_
  refine keeps_seq (credits_mundane (mundane_autoRecall _ _) hrow.2) fun _ past htold => ?_
  refine keeps_seq (credits_mundane (mundane_checkLiquidity _ _) htold) fun _ past htold => ?_
  refine keeps_seq (credits_mundane (mundane_reserveLiquidity _ _ _) htold) fun _ past htold => ?_
  refine keeps_seq (credits_setStatus rfl htold) fun row past hrow => ?_
  refine keeps_seq (credits_lift hrow.2) fun _ past htold => ?_
  refine keeps_seq (credits_lift htold) fun units past htold => ?_
  apply keeps_handle
  exact keeps_mono (credits_settle hrow.1 htold) (fun _ _ h => h) fun _ _ h => credits_recover h

/-- The lease keeps the law of what runs under it. -/
theorem credits_withExecutionLease {key : String} {leaseId : ℕ} {status : PaymentStatus}
    {fn : Saga α}
    (hfn : ∀ past, Told past → (crediting id).Keeps (fun _ => Told) (fun _ => Told) fn past)
    (hpast : Told past) :
    (crediting id).Keeps (fun _ => Told) (fun _ => Told)
      (withExecutionLease key leaseId status fn) past := by
  refine keeps_seq (credits_call trivial hpast) fun claimed past h => ?_
  have hrelease : ∀ past, Told past → (crediting id).Keeps (fun _ => Told) (fun (_ : Err) => Told)
      ((call (.releaseLease leaseId)).ignoring : Saga Unit) past :=
    fun past htold => credits_mundane (mundane_plain rfl).ignoring htold
  cases claimed with
  | false => exact h.2
  | true => exact keeps_andFinally (keeps_mono (hfn past h.2) (fun _ => hrelease) fun _ => hrelease)

/-- The execution of an approved payment keeps the law. -/
theorem credits_executeApproved {leaseId : ℕ} (hpast : Told past) :
    (crediting id).Keeps (fun _ => Told) (fun _ => Told) (executeApproved env leaseId) past := by
  have hexecute : (crediting id).Keeps (fun _ => Told) (fun _ => Told)
      (executePayment env leaseId) past := by
    refine keeps_seq (credits_findPayment hpast) fun row past hrow => ?_
    split
    · exact credits_withExecutionLease (fun _ htold => credits_runExecution hrow.1 htold) hrow.2
    · exact hrow.2
  apply keeps_handle
  exact keeps_mono hexecute (fun _ _ h => h) fun _ _ h =>
    credits_mundane (Prog.Uses.bind (mundane_plain rfl) fun _ => trivial) h

/-- An execution keeps the law. -/
theorem credits_runExecute {leaseId : ℕ} {actor : String} {routeId : Option String}
    (hpast : Told past) :
    (crediting id).Keeps (fun _ => Told) (fun _ => Told) (runExecute env leaseId actor routeId)
      past := by
  refine keeps_seq (credits_findPayment hpast) fun row past hrow => ?_
  refine keeps_seq (credits_lift hrow.2) fun _ past htold => ?_
  have hselected : (crediting id).Keeps
      (fun selection past => routeSelection row routeId = .ok selection ∧ Told past)
      (fun _ => Told) (lift (routeSelection row routeId)) past :=
    keeps_ofExcept (fun _ h => ⟨h, htold⟩) fun _ _ => htold
  refine keeps_seq hselected fun selection past h => ?_
  obtain ⟨hselection, htold⟩ := h
  split
  · refine keeps_seq
      (credits_mundane (mundane_complianceGate _ _ (routeSelection_status hselection))
      htold) fun row past htold => ?_
    split
    · exact credits_executeApproved htold
    · exact htold
  · split
    · exact credits_executeApproved htold
    · exact htold

/-- Reconciling a payout that was sent keeps the law. -/
theorem credits_reconcilePayout {hash : Hash} (hp : p.id = id) (hpast : Told past) :
    (crediting id).Keeps (fun _ => Told) (fun _ => Told) (reconcilePayout p hash) past := by
  refine keeps_seq (credits_mundane (mundane_transactionOutcome _ _) hpast)
    fun outcome past htold => ?_
  cases outcome with
  | confirmed =>
    refine keeps_seq (credits_lift htold) fun amount past htold => ?_
    exact keeps_seq (credits_completeSettledPayout hp htold) fun _ _ h => h
  | reverted => exact credits_mundane (mundane_awaitCompensation _ _ _) htold
  | absent => exact credits_mundane (mundane_awaitCompensation _ _ _) htold
  | unknown => exact keeps_seq (credits_mundane (mundane_audit rfl) htold) fun _ _ h => h

/-- A reconcile keeps the law. -/
theorem credits_reconcile {leaseId : ℕ} (hpast : Told past) :
    (crediting id).Keeps (fun _ => Told) (fun _ => Told)
      (reconcileUnresolvedPayment env leaseId) past := by
  refine keeps_seq (credits_findPayment hpast) fun row past hrow => ?_
  dsimp only
  split
  · exact hrow.2
  · exact hrow.2
  · split
    · exact hrow.2
    · exact credits_withExecutionLease (fun _ htold => credits_reconcilePayout hrow.1 htold) hrow.2
  · split
    · exact hrow.2
    · exact credits_mundane (mundane_withExecutionLease (mundane_reconcileCompensation _ _)) hrow.2
  · exact hrow.2

/-- Every request says of its credit what it has to. -/
theorem credits_request (i : ℕ) (r : Request) :
    (crediting id).Keeps (fun _ => Told) (fun _ => Told) (r.program env i) [] := by
  cases r with
  | execute actor routeId => exact keeps_seq (credits_runExecute rfl) fun _ _ h => h
  | cancel actor => exact keeps_seq (credits_mundane (mundane_cancelPayment _) rfl) fun _ _ h => h
  | review actor approve note =>
    exact keeps_seq (credits_mundane (mundane_reviewPayment _ _ _) rfl) fun _ _ h => h
  | quote actor => exact keeps_seq (credits_mundane (mundane_quotePayment _) rfl) fun _ _ h => h
  | repair => exact keeps_seq (credits_mundane (mundane_repairCompensation _) rfl) fun _ _ h => h
  | reconcile => exact keeps_seq (credits_reconcile rfl) fun _ _ h => h

end SettlementOS.Analysis
