import SettlementOS.Model.Database

/-!
# Transactions on the audit log (`lib/audit.ts`, `lib/transitions.ts`)

A status change and its event, opened up: the conditional update of the row and the append to
the chain, statement by statement, in one transaction. `SettlementOS.Program.Statements` takes
the same transaction as a single statement; here is what that statement consists of. With it
are the other users of the log: `audit`, the checkpoints, and the verification, whose reads
are in no transaction.
-/

set_option autoImplicit false

namespace SettlementOS.Program.AuditLog

open SettlementOS.Computation Model

/-- Code that runs on the database. -/
abbrev Query (α : Type) := Prog dbEffects Err α

/-- Perform one statement; what it throws is thrown. -/
def query (o : DbStmt) : Query o.Result := .perform o fun r => Prog.ofExcept r

/-- The end of a transaction that has thrown. -/
def abandon {α : Type} (err : Err) : Query α := do
  query .rollback
  throw err

/-- `prisma.$transaction`. -/
def transaction {α : Type} (fn : Query α) : Query α := do
  query .begin
  (fn.bind fun a => (query .commit).bind fun _ => .ret a).handle abandon

variable (env : AuditEnv)

/-! ## Appending -/

/-- `lockAuditChain`. -/
def lockAuditChain : Query Unit :=
  if env.skipAuditChainLock.isSome then
    throw (.error "SETTLEMENTOS_SKIP_AUDIT_CHAIN_LOCK is set")
  else query .lockAuditChain

/-- `writeCheckpoint`. -/
def writeCheckpoint (lastEventId : ℕ) (chainHash key : String) : Query AuditCheckpoint :=
  query (.createCheckpoint lastEventId chainHash (env.signAnchor lastEventId chainHash key))

/-- `maybeCheckpoint`. -/
def maybeCheckpoint (event : AuditEvent) : Query Unit :=
  match env.anchorKey with
  | none => return ()
  | some key => do
    let last ← query .lastCheckpoint
    let since ← query (.countEvents ((last.map (·.lastEventId)).getD 0))
    if since < env.checkpointInterval then return ()
    else
      let _ ← writeCheckpoint env event.id event.hash key
      return ()

/-- `appendEvent`. -/
def appendEvent (record : AuditRecord) : Query AuditEvent := do
  lockAuditChain env
  let last ← query .lastEvent
  let prevHash := (last.map (·.hash)).getD "GENESIS"
  let fields : EventFields :=
    ⟨record.action, record.actor, record.paymentId, env.stringifyDetail record.detail⟩
  let event ← query (.createEvent fields prevHash (env.hashEvent prevHash fields))
  maybeCheckpoint env event
  return event

/-- Append one event after the other. -/
def appendEvents : List AuditRecord → Query Unit
  | [] => return ()
  | record :: records => do
    let _ ← appendEvent env record
    appendEvents records

/-- `createCheckpoint`. -/
def createCheckpoint : Query AuditCheckpoint :=
  match env.anchorKey with
  | none =>
    throw (.auditAnchor .notConfigured "audit anchoring is not configured (AUDIT_ANCHOR_KEY)")
  | some key => transaction do
    lockAuditChain env
    match ← query .lastEvent with
    | none => throw (.auditAnchor .noEvents "there are no audit events to anchor")
    | some tip =>
      match ← query .lastCheckpoint with
      | none => writeCheckpoint env tip.id tip.hash key
      | some last =>
        if last.lastEventId = tip.id then return last
        else writeCheckpoint env tip.id tip.hash key

/-- `verifyAuditChain`. -/
def verifyAuditChain : Query AuditIntegrity :=
  env.verifyAuditChain (fun afterId => query (.findEvents afterId)) (query .lastCheckpoint)
    (fun id => query (.findEvent id))

/-! ## Status changes -/

/-- The body of the transaction of `transitionStatus`. -/
def swap (id : String) (status next : PaymentStatus) (opts : TransitionOpts) : Query Payment := do
  let count ← query (.updateMany id status (transitionData next opts))
  if count = 0 then throw (.staleTransition id)
  else
    let updated ← query (.findPayment id)
    let _ ← appendEvent env (transitionRecord id status next opts)
    return updated

/-- `transitionStatus`, of the row a caller read with this id and status. -/
def transitionStatus (id : String) (status next : PaymentStatus) (opts : TransitionOpts) :
    Query Payment :=
  if canTransition status next then transaction (swap env id status next opts)
  else throw (.error s!"Invalid payment state transition: {status.name} → {next.name}")

/-! ## The requests -/

/-- A use of the log. -/
inductive AuditRequest where
  /-- `transitionStatus` -/
  | transition (id : String) (status next : PaymentStatus) (opts : TransitionOpts)
  /-- `audit`, of each record, in one transaction: its own or that of the change it describes -/
  | audit (records : List AuditRecord)
  /-- `createCheckpoint` -/
  | checkpoint
  /-- `verifyAuditChain` -/
  | verify
  deriving DecidableEq

/-- What a request is answered with. -/
inductive AuditReply where
  | payment (payment : Payment)
  | recorded
  | checkpoint (checkpoint : AuditCheckpoint)
  | integrity (integrity : AuditIntegrity)

/-- The program that serves a request. -/
def AuditRequest.program : AuditRequest → Query AuditReply
  | .transition id status next opts =>
    (transitionStatus env id status next opts).bind fun p => .ret (.payment p)
  | .audit records => (transaction (appendEvents env records)).bind fun _ => .ret .recorded
  | .checkpoint => (createCheckpoint env).bind fun c => .ret (.checkpoint c)
  | .verify => (verifyAuditChain env).bind fun r => .ret (.integrity r)

/-- The options every caller passes: the columns leave the status alone, and no key of the detail
is `from` or `to`. -/
structure PlainOpts (opts : TransitionOpts) : Prop where
  status : opts.data.status = none
  keys : ∀ kv ∈ opts.detail, kv.1 ≠ "from" ∧ kv.1 ≠ "to"

/-- The status changes of the payment in scope are made as their callers make them, and nothing
else that is recorded about it has a detail whose first key is `from`. -/
def AuditRequest.Allowed (scope : Option String) : AuditRequest → Prop
  | .transition id _ _ opts => scope = some id → PlainOpts opts
  | .audit records => ∀ r ∈ records, r.paymentId ≠ none → r.paymentId = scope →
      ∀ kv ∈ r.detail.head?, kv.1 ≠ "from"
  | _ => True

/-- The service of the audit log, with a payment in scope or with none. -/
@[reducible] def auditService (scope : Option String) : Service where
  E := dbEffects
  State := Database
  Choice := DbChoice
  exec i o c s := o.exec i c s
  Outside := Abort
  outside := Abort.exec
  Request := { r : AuditRequest // r.Allowed scope }
  Fault := Err
  Result := AuditReply
  program _ r := r.1.program env

end SettlementOS.Program.AuditLog
