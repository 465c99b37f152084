import Mathlib.Logic.Function.Basic
import SettlementOS.Computation.Service
import SettlementOS.Model.Audit

/-!
# The database, statement by statement

The payments, the audit log and its checkpoints, and the transactions open on them. What a
transaction writes is its own (`Pending`) until it commits; every statement sees what is
committed when it runs, and its own transaction's writes over it. A row that is written, and
the advisory lock of the audit chain, are held until the transaction ends; a statement that
needs one another transaction holds cannot be answered before. Ids are drawn from a counter
that a rollback does not turn back.

A transaction ends with its commit or its rollback, or the server aborts it on its own, after
which every statement of it fails.
-/

set_option autoImplicit false

namespace SettlementOS.Model

open SettlementOS.Computation

/-- What a transaction has written. -/
structure Pending where
  /-- the rows it has written -/
  payments : String → Option Payment := fun _ => none
  events : List AuditEvent := []
  checkpoints : List AuditCheckpoint := []

/-- The transaction of a program. -/
inductive Transaction where
  /-- none is open -/
  | idle
  | active (pending : Pending)
  /-- the server has rolled it back -/
  | aborted

/-- The database. -/
structure Database where
  payments : String → Option Payment
  events : List AuditEvent
  checkpoints : List AuditCheckpoint
  nextEventId : ℕ := 1
  nextCheckpointId : ℕ := 1
  /-- which program's transaction holds the row -/
  rowLock : String → Option ℕ := fun _ => none
  /-- which program's transaction holds the advisory lock -/
  chainLock : Option ℕ := none
  transactions : ℕ → Transaction := fun _ => .idle

/-- A database with these payments and no audit events. -/
def Database.created (payments : String → Option Payment) : Database where
  payments := payments
  events := []
  checkpoints := []

namespace Database

variable (db : Database)

/-- What program `i` has written and not committed. -/
def pending (i : ℕ) : Pending :=
  match db.transactions i with
  | .active p => p
  | _ => {}

/-- A row as program `i` sees it. -/
def payment (i : ℕ) (id : String) : Option Payment := (db.pending i).payments id <|> db.payments id

/-- The events program `i` sees. -/
def visibleEvents (i : ℕ) : List AuditEvent := db.events ++ (db.pending i).events

/-- The checkpoints program `i` sees. -/
def visibleCheckpoints (i : ℕ) : List AuditCheckpoint :=
  db.checkpoints ++ (db.pending i).checkpoints

/-- Program `i`'s transaction is now this one. -/
def setTransaction (i : ℕ) (t : Transaction) : Database :=
  { db with transactions := Function.update db.transactions i t }

/-- Program `i`'s transaction has ended: its locks are free. -/
def release (i : ℕ) (t : Transaction) : Database :=
  { db with
    rowLock := fun id => if db.rowLock id = some i then none else db.rowLock id
    chainLock := if db.chainLock = some i then none else db.chainLock
    transactions := Function.update db.transactions i t }

/-- What program `i` has written is there for everybody. -/
def commit (i : ℕ) (p : Pending) : Database :=
  { db with
    payments := fun id => p.payments id <|> db.payments id
    events := db.events ++ p.events
    checkpoints := db.checkpoints ++ p.checkpoints }.release i .idle

end Database

/-- The statements. -/
inductive DbStmt where
  | begin
  | commit
  | rollback
  /-- `payment.updateMany`, of the payment when it has the status -/
  | updateMany (id : String) (status : PaymentStatus) (data : PaymentPatch)
  /-- `payment.findUniqueOrThrow` -/
  | findPayment (id : String)
  /-- `pg_advisory_xact_lock` -/
  | lockAuditChain
  /-- `auditEvent.findFirst`, the last by id -/
  | lastEvent
  /-- `auditEvent.create` -/
  | createEvent (fields : EventFields) (prevHash hash : String)
  /-- `auditCheckpoint.findFirst`, the last by id -/
  | lastCheckpoint
  /-- `auditEvent.count`, after an id -/
  | countEvents (afterId : ℕ)
  /-- `auditCheckpoint.create` -/
  | createCheckpoint (lastEventId : ℕ) (chainHash signature : String)
  /-- `auditEvent.findMany`, after an id -/
  | findEvents (afterId : ℕ)
  /-- `auditEvent.findUnique` -/
  | findEvent (id : ℕ)
  deriving DecidableEq

/-- What a statement that succeeds answers. -/
@[reducible] def DbStmt.Result : DbStmt → Type
  | .begin => Unit
  | .commit => Unit
  | .rollback => Unit
  | .updateMany .. => ℕ
  | .findPayment _ => Payment
  | .lockAuditChain => Unit
  | .lastEvent => Option AuditEvent
  | .createEvent .. => AuditEvent
  | .lastCheckpoint => Option AuditCheckpoint
  | .countEvents _ => ℕ
  | .createCheckpoint .. => AuditCheckpoint
  | .findEvents _ => List AuditEvent
  | .findEvent _ => Option AuditEvent

/-- The statements and their answers. -/
@[reducible] def dbEffects : Effects where
  Stmt := DbStmt
  Answer o := Except Err o.Result

/-- A write where no transaction is open. -/
def notOpen : Err := .database "Transaction not found."

/-- What a statement that does not fail does, and what it answers. `none`: it has to wait. -/
def DbStmt.perform (i : ℕ) : (o : DbStmt) → Database → Option (Except Err o.Result × Database)
  | .begin, db =>
    match db.transactions i with
    | .idle => some (.ok (), db.setTransaction i (.active {}))
    | _ => some (.error (.database "A transaction is already open."), db)
  | .commit, db =>
    match db.transactions i with
    | .active p => some (.ok (), db.commit i p)
    | _ => some (.error notOpen, db)
  | .rollback, db => some (.ok (), db.release i .idle)
  | .updateMany id status data, db =>
    match db.transactions i, db.payment i id with
    | .active p, some row =>
      if row.status ≠ status then some (.ok 0, db)
      else if db.rowLock id ≠ none ∧ db.rowLock id ≠ some i then none
      else
        let row := row.apply data
        some (.ok 1, { db.setTransaction i (.active
            { p with payments := Function.update p.payments id (some row) }) with
          rowLock := Function.update db.rowLock id (some i) })
    | .active _, none => some (.ok 0, db)
    | _, _ => some (.error notOpen, db)
  | .findPayment id, db =>
    match db.payment i id with
    | some row => some (.ok row, db)
    | none => some (.error (.error "No Payment found"), db)
  | .lockAuditChain, db =>
    match db.transactions i with
    | .active _ =>
      if db.chainLock ≠ none ∧ db.chainLock ≠ some i then none
      else some (.ok (), { db with chainLock := some i })
    | _ => some (.error notOpen, db)
  | .lastEvent, db => some (.ok (Model.lastEvent (db.visibleEvents i)), db)
  | .createEvent fields prevHash hash, db =>
    match db.transactions i with
    | .active p =>
      -- the foreign key on the payment
      if (fields.paymentId.any fun id => (db.payment i id).isNone) = true then
        some (.error (.error "Foreign key constraint violated"), db)
      else
        let event : AuditEvent := ⟨db.nextEventId, fields.paymentId, fields.actor, fields.action,
          fields.detail, prevHash, hash⟩
        some (.ok event,
          { db.setTransaction i (.active { p with events := p.events ++ [event] }) with
          nextEventId := db.nextEventId + 1 })
    | _ => some (.error notOpen, db)
  | .lastCheckpoint, db => some (.ok (Model.lastCheckpoint (db.visibleCheckpoints i)), db)
  | .countEvents afterId, db => some (.ok (Model.countEvents (db.visibleEvents i) afterId), db)
  | .createCheckpoint lastEventId chainHash signature, db =>
    match db.transactions i with
    | .active p =>
      let checkpoint : AuditCheckpoint := ⟨db.nextCheckpointId, lastEventId, chainHash, signature⟩
      some (.ok checkpoint, { db.setTransaction i (.active
          { p with checkpoints := p.checkpoints ++ [checkpoint] }) with
        nextCheckpointId := db.nextCheckpointId + 1 })
    | _ => some (.error notOpen, db)
  | .findEvents afterId, db => some (.ok (Model.findEvents (db.visibleEvents i) afterId), db)
  | .findEvent id, db => some (.ok (Model.findEvent (db.visibleEvents i) id), db)

/-- What the outside decides about a statement: the message it fails with, when it fails. -/
abbrev DbChoice := Option String

/-- Whether the server has aborted program `i`'s transaction. -/
def Database.isAborted (db : Database) (i : ℕ) : Bool :=
  match db.transactions i with
  | .aborted => true
  | _ => false

/-- One statement: it fails, or it is performed. In a transaction the server has aborted only the
rollback is; a commit that fails has rolled back. -/
def DbStmt.exec (i : ℕ) :
    (o : DbStmt) → DbChoice → Database → Option (Except Err o.Result × Database)
  | .rollback, _, db => DbStmt.rollback.perform i db
  | .commit, some message, db => some (.error (.database message), db.release i .idle)
  | _, some message, db => some (.error (.database message), db)
  | o, none, db =>
    if db.isAborted i then some (.error (.database "Transaction already closed."), db)
    else o.perform i db

/-- The move the server makes by itself: it aborts a transaction. -/
inductive Abort where
  | abort (i : ℕ)

/-- A transaction that is open is rolled back. -/
def Abort.exec : Abort → Database → Option Database
  | .abort i, db =>
    match db.transactions i with
    | .active _ => some (db.release i .aborted)
    | _ => none

end SettlementOS.Model
