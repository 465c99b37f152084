import SettlementOS.Program.Executor

/-!
# The requests on a payment (`app/api/payments/[id]`)

What each route does once its caller has been let through: the execute route with the
compliance gate in front of the executor, cancel, review and quote, and the operator's
repair and reconcile. `sagaService` is the service they make up together: any number of
them, in any order, on one payment.
-/

set_option autoImplicit false

namespace SettlementOS.Program

open SettlementOS.Computation Model

/-! ## The compliance gate -/

/-- `runComplianceChecks`. -/
def runComplianceChecks (env : Env) : Saga ComplianceOverall := do
  let payment ← call .findPayment
  let senderWallet := walletOnNetwork env.sender.wallets payment.sourceNetwork
  let recipientWallet := walletOnNetwork env.recipient.wallets payment.destinationNetwork
  let answers ← call (.screen senderWallet recipientWallet)
  let checks ← lift (screeningChecks env.sender env.recipient payment senderWallet
    recipientWallet answers)
  call (.createComplianceChecks checks)
  return complianceOverall checks

/-! ## The routes -/

/-- A request on the payment. -/
inductive Request where
  /-- `POST execute`, with the route picked in the body -/
  | execute (actor : String) (routeId : Option String)
  /-- `POST cancel` -/
  | cancel (actor : String)
  /-- `POST review` -/
  | review (actor : String) (approve : Bool) (note : String)
  /-- `POST quote` -/
  | quote (actor : String)
  /-- `POST repair` -/
  | repair
  /-- `POST reconcile` -/
  | reconcile
  deriving DecidableEq, Repr

/-- What a request is answered with, when it is not refused. -/
inductive Reply where
  | payment (payment : Payment)
  | reconciled (result : ReconcileResult)
  deriving DecidableEq, Repr

/-- `unusableAmount`. -/
def usableAmount (payment : Payment) : Except Err Unit :=
  match parseAmount payment.amount payment.sourceCurrency with
  | .ok _ => .ok ()
  | .error e => .error (conflict s!"payment cannot be executed: {e.message}")

/-- The columns a route picked in the body writes, checked against the quote. -/
def routeSelection (payment : Payment) (routeId : Option String) : Except Err PaymentPatch :=
  match routeId with
  | none => .ok {}
  | some routeId =>
    if routeId ≠ "" ∧ payment.status = .quoted then
      match (payment.quoteJson.getD []).find? fun r => r.routeId = routeId with
      | none => .error (.api .invalidRequest "unknown route_id")
      | some route => .ok
          { selectedRouteId := some route.routeId
            fxRate := some route.estimatedFxRate
            destinationAmount := some route.estimatedDestinationAmount }
    else .ok {}

/-- The compliance gate of the execute route: from `QUOTED` to where the screening leads. -/
def complianceGate (env : Env) (actor : String) (payment : Payment) (selection : PaymentPatch) :
    Saga Payment := do
  let payment ← transitionStatus payment .compliancePending
    { data := selection, actor := some actor }
  match ← runComplianceChecks env with
  | .rejected =>
    transitionStatus payment .rejected
      { detail := [("by", .str "compliance_gate")], actor := some actor }
  | .manualReview =>
    transitionStatus payment .manualReview
      { detail := [("reason", .str "compliance_flags")], actor := some actor }
  | .approved =>
    transitionStatus payment .approved
      { detail := [("by", .str "compliance_gate")], actor := some actor }

/-- A failed execution reads the row again for its reply, and answers with the failure. -/
def executeApproved (env : Env) (leaseId : ℕ) : Saga Payment :=
  (executePayment env leaseId).handle fun e => do
    let _ ← call .findPayment
    throw e

/-- `runExecute`. -/
def runExecute (env : Env) (leaseId : ℕ) (actor : String) (routeId : Option String) :
    Saga Payment := do
  let payment ← call .findPayment
  lift (usableAmount payment)
  let selection ← lift (routeSelection payment routeId)
  if payment.status = .quoted then
    let payment ← complianceGate env actor payment selection
    -- a screening that did not approve has been answered already
    if payment.status = .approved then executeApproved env leaseId else pure payment
  else if payment.status = .approved then executeApproved env leaseId
  else throw (conflict s!"payment cannot be executed from status {payment.status.name}")

/-- `POST cancel`. -/
def cancelPayment (actor : String) : Saga Payment := do
  let payment ← call .findPayment
  if payment.status ∈ cancellableStates then
    transitionStatus payment .cancelled { actor := some actor }
  else throw (conflict s!"payment cannot be cancelled from status {payment.status.name}")

/-- `POST review`. -/
def reviewPayment (actor : String) (approve : Bool) (note : String) : Saga Payment := do
  let payment ← call .findPayment
  if payment.status = .manualReview then
    transitionStatus payment (if approve then .approved else .rejected)
      { detail := [("note", .str note)]
        action := some (if approve then "payment.review.approved" else "payment.review.rejectd")
        actor := some actor }
  else throw (conflict s!"payment is not in MANUAL_REVIEW (current: {payment.status.name})")

/-- The columns a quote writes. -/
def quoteData (routes : List RouteOption) (recommended : RouteOption) : PaymentPatch where
  quoteJson := some routes
  selectedRouteId := some recommended.routeId
  fxRate := some recommended.estimatedFxRate
  destinationAmount := some recommended.estimatedDestinationAmount
  feeJson := some {
    platformFee := recommended.platformFee
    platformFeeBps := recommended.platformFeeBps
    fxSpreadBps := recommended.fxSpreadBps
    slippageBps := recommended.slippageBps
    estimatedGasUsd := recommended.estimatedGasUsd }

/-- `POST quote`. -/
def quotePayment (env : Env) (actor : String) : Saga Payment := do
  let payment ← call .findPayment
  let routes ← quoteRoutes env
  match (routes.find? (·.recommended)) <|> routes.head? with
  | none => throw (.error "Cannot read properties of undefined (reading 'route_id')")
  | some recommended =>
    transitionStatus payment .quoted
      { data := quoteData routes recommended
        auditData := some {}
        detail := [("routes", .strs (routes.map RouteOption.routeId))]
        action := some "payment.quoted"
        actor := some actor }

/-- The program that serves a request. The lease id is the request's own number. -/
def Request.program (env : Env) (i : ℕ) : Request → Saga Reply
  | .execute actor routeId => (runExecute env i actor routeId).bind fun p => .ret (.payment p)
  | .cancel actor => (cancelPayment actor).bind fun p => .ret (.payment p)
  | .review actor approve note =>
    (reviewPayment actor approve note).bind fun p => .ret (.payment p)
  | .quote actor => (quotePayment env actor).bind fun p => .ret (.payment p)
  | .repair => (repairCompensation env i).bind fun p => .ret (.payment p)
  | .reconcile => (reconcileUnresolvedPayment env i).bind fun r => .ret (.reconciled r)

/-- The requests that may move money: an execution, a repair or a reconcile. -/
def Request.isAttempt : Request → Bool
  | .execute .. => true
  | .repair => true
  | .reconcile => true
  | _ => false

/-- The service of one payment. -/
@[reducible] def sagaService (env : Env) : Service where
  E := sagaEffects
  State := State
  Choice := Choice
  exec _ o c s := o.exec c s
  Outside := Mining
  outside := Mining.exec
  Request := Request
  Fault := Err
  Result := Reply
  program := Request.program env

end SettlementOS.Program
