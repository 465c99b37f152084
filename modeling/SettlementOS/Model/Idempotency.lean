import SettlementOS.Computation.Service
import SettlementOS.Model.Api

/-!
# One idempotency record (`lib/idempotency.ts`)

The record of one principal's key, which every request with that key works on: claimed
by creating it, reclaimed in place once it is stale, stamped with a response, or deleted.
Each of these is one statement and each may fail, before it took effect or after. The
handler a request runs is the outside's: it starts, and some time later it has answered
or thrown, having committed something or not.
-/

set_option autoImplicit false

namespace SettlementOS.Model

open SettlementOS.Computation

/-- `IDEMPOTENCY_TTL_MS` -/
def IDEMPOTENCY_TTL_MS : ℕ := 24 * 60 * 60 * 1000

/-- `IDEMPOTENCY_KEY_MAX_LENGTH` -/
def IDEMPOTENCY_KEY_MAX_LENGTH : ℕ := 255

/-- `IdempotencyRecord`, of one principal and key. -/
structure IdempotencyRecord where
  id : ℕ
  route : String
  requestHash : String
  responseStatus : Option ℕ
  responseBody : Option String
  createdAt : ℕ
deriving DecidableEq, Repr

/-- `isExpired` -/
def isExpired (createdAt now : ℕ) : Bool := decide (IDEMPOTENCY_TTL_MS ≤ now - createdAt)

/-- What one of the record's statements throws. -/
inductive RecordErr where
  /-- code `P2002` -/
  | uniqueViolation
  | database (message : String)
deriving DecidableEq, Repr

/-- A handler's reply. -/
structure Response where
  status : ℕ
  body : String
deriving DecidableEq, Repr

/-- `res.ok` -/
def Response.ok (res : Response) : Bool := decide (200 ≤ res.status ∧ res.status ≤ 299)

/-- How a handler's run ended, and whether it had committed an effect by then. -/
structure HandlerEnd where
  outcome : Except String Response
  committed : Bool

/-- The statements. -/
inductive RecordStmt where
  /-- `beginWrite`: a refusal, or none -/
  | beginWrite
  /-- `idempotencyRecord.create` -/
  | create (route requestHash : String)
  /-- `idempotencyRecord.findUnique` -/
  | findUnique
  /-- `Date.now()` -/
  | now
  /-- `idempotencyRecord.updateMany`, of the record as it was read -/
  | updateMany (id createdAt : ℕ) (route requestHash : String) (renewedAt : ℕ)
  /-- the handler starts; answered with the time -/
  | startHandler
  /-- the handler has ended -/
  | awaitHandler
  /-- `idempotencyRecord.update` -/
  | update (id : ℕ) (response : Response)
  /-- `idempotencyRecord.deleteMany` -/
  | deleteMany (id : ℕ)
deriving DecidableEq

/-- What a statement answers. -/
@[reducible] def RecordStmt.Answer : RecordStmt → Type
  | .beginWrite => Option ApiErrorResult
  | .create .. => Except RecordErr IdempotencyRecord
  | .findUnique => Except RecordErr (Option IdempotencyRecord)
  | .now => ℕ
  | .updateMany .. => Except RecordErr ℕ
  | .startHandler => ℕ
  | .awaitHandler => HandlerEnd
  | .update .. => Except RecordErr Unit
  | .deleteMany .. => Except RecordErr Unit

/-- The statements and their answers. -/
@[reducible] def recordEffects : Effects where
  Stmt := RecordStmt
  Answer := RecordStmt.Answer

/-- The shared state: the record, who claimed it last, how many ids were drawn, the clock. -/
structure RecordState where
  record : Option IdempotencyRecord
  claimant : ℕ
  issued : ℕ
  clock : ℕ

/-- A key nobody has presented. -/
def RecordState.unused : RecordState := ⟨none, 0, 0, 0⟩

/-- How a write fails: with a message, having taken effect or not. -/
structure WriteFailure where
  message : String
  applied : Bool

/-- What the outside decides about one statement. -/
structure RecordChoice where
  /-- the rate limit or the body size refuses the write -/
  refused : Option ApiErrorResult := none
  /-- the statement fails -/
  fails : Option WriteFailure := none
  /-- how the handler ended -/
  handler : HandlerEnd := ⟨.error "", false⟩

/-- Whether a write takes effect. -/
def RecordChoice.applied (c : RecordChoice) : Bool :=
  match c.fails with
  | none => true
  | some f => f.applied

/-- A write that answers `done.1` and leads to `done.2`, unless it fails. -/
def RecordChoice.write {α : Type} (c : RecordChoice) (s : RecordState)
    (done : Except RecordErr α × RecordState) : Except RecordErr α × RecordState :=
  match c.fails with
  | none => done
  | some f => (.error (.database f.message), if f.applied then done.2 else s)

/-- The record, when it has this id. -/
def RecordState.find (s : RecordState) (id : ℕ) : Option IdempotencyRecord :=
  s.record.filter fun r => r.id == id

/-- What a statement of program `i` answers and does. -/
def RecordStmt.exec (i : ℕ) : (o : RecordStmt) → RecordChoice → RecordState →
    o.Answer × RecordState
  | .beginWrite, c, s => (c.refused, s)
  | .create route requestHash, c, s =>
    -- the unique index on the principal and the key
    c.write s <| match s.record with
      | some _ => (.error .uniqueViolation, s)
      | none =>
        let record := ⟨s.issued, route, requestHash, none, none, s.clock⟩
        (.ok record, { s with record := some record, claimant := i, issued := s.issued + 1 })
  | .findUnique, c, s => c.write s (.ok s.record, s)
  | .now, _, s => (s.clock, s)
  | .updateMany id createdAt route requestHash renewedAt, c, s =>
    c.write s <| match s.find id with
      | some r =>
        if r.createdAt = createdAt then
          (.ok 1, { s with
            record := some ⟨r.id, route, requestHash, none, none, renewedAt⟩, claimant := i })
        else (.ok 0, s)
      | none => (.ok 0, s)
  | .startHandler, _, s => (s.clock, s)
  | .awaitHandler, c, s => (c.handler, s)
  | .update id response, c, s =>
    c.write s <| match s.find id with
      | some r => (.ok (), { s with
          record := some { r with
            responseStatus := some response.status, responseBody := some response.body } })
      | none => (.error (.database "No record was found for an update."), s)
  | .deleteMany id, c, s =>
    c.write s (.ok (), if (s.find id).isSome then { s with record := none } else s)

/-- The move the outside makes by itself: time passes. -/
inductive Tick where
  | tick (ms : ℕ)

/-- The clock never goes back. -/
def Tick.exec : Tick → RecordState → RecordState
  | .tick ms, s => { s with clock := s.clock + ms }

end SettlementOS.Model
