import SettlementOS.Model.Idempotency

/-!
# Idempotent writes (`lib/idempotency.ts`, `app/api/idempotency.ts`)

Claiming a key, stamping or dropping the claim, and the wrapper every keyed write runs
in. `service` serves any number of requests that carry one key of one principal.
-/

set_option autoImplicit false

namespace SettlementOS.Program.Idempotency

open SettlementOS.Computation Model

/-- What a keyed write throws. -/
inductive Fault where
  /-- one of the record's own statements failed -/
  | record (error : RecordErr)
  /-- the handler threw -/
  | handler (message : String)
deriving DecidableEq

/-- Code that runs on the record. -/
abbrev Write (α : Type) := Prog recordEffects Fault α

/-- Perform one statement. -/
def perform (o : RecordStmt) : Write o.Answer := .perform o .ret

/-- The answer of a statement on the record; what it throws is thrown. -/
def answered {α : Type} : Except RecordErr α → Write α
  | .ok a => .ret a
  | .error e => .throw (.record e)

/-- `IdempotencyOutcome` -/
inductive Outcome where
  | fresh (recordId : ℕ)
  | replay (response : Response)
  | mismatch
  | inFlight
deriving DecidableEq

/-- What an existing record that has not expired says about a request. -/
def reported (existing : IdempotencyRecord) (route requestHash : String) : Outcome :=
  if existing.route ≠ route ∨ existing.requestHash ≠ requestHash then .mismatch
  else
    match existing.responseStatus, existing.responseBody with
    | some status, some body => .replay ⟨status, body⟩
    | _, _ => .inFlight

/-- One pass of the loop of `beginIdempotent`; `none` goes round again. -/
def claim (route requestHash : String) : Write (Option Outcome) := do
  match ← perform (.create route requestHash) with
  | .ok created => return some (.fresh created.id)
  | .error (.database message) => throw (.record (.database message))
  | .error .uniqueViolation =>
    match ← (perform .findUnique).bind answered with
    | none => return none
    | some existing =>
      if isExpired existing.createdAt (← perform .now) then
        let now ← perform .now
        let claimed ← (perform (.updateMany existing.id existing.createdAt route requestHash
          now)).bind answered
        return if claimed = 1 then some (.fresh existing.id) else none
      else return some (reported existing route requestHash)

/-- `beginIdempotent`: two passes. -/
def beginIdempotent (route requestHash : String) : Write Outcome := do
  match ← claim route requestHash with
  | some outcome => return outcome
  | none =>
    match ← claim route requestHash with
    | some outcome => return outcome
    | none => return .inFlight

/-- `completeIdempotent` -/
def completeIdempotent (recordId : ℕ) (response : Response) : Write Unit :=
  (perform (.update recordId response)).bind answered

/-- `abandonIdempotent` -/
def abandonIdempotent (recordId : ℕ) : Write Unit :=
  (perform (.deleteMany recordId)).bind answered

/-- A key a request carries; an empty header is no key. -/
abbrev Key := { key : String // key ≠ "" }

/-- What the requests of one service have in common: the key, and how bodies are read. -/
structure Keying where
  /-- a parsed body -/
  Body : Type
  /-- the `Idempotency-Key` header -/
  key : Key
  /-- `hashRequest`, of the body or of the empty object where there is none -/
  hashRequest : Option Body → String
  /-- `typeof body === "object"` -/
  isObject : Body → Bool

/-- A keyed write. -/
structure Request (env : Keying) where
  /-- the target, not the template -/
  route : String
  /-- the parsed body, when there is one -/
  body : Option env.Body
  /-- `requireObjectBody` -/
  requireObjectBody : Bool

/-- What a client gets. -/
inductive Reply where
  /-- the handler's own answer -/
  | answered (response : Response)
  /-- a stored answer, with the replay header -/
  | replayed (response : Response)
  | refused (error : ApiErrorResult)
deriving DecidableEq

variable {env : Keying}

/-- Whether an answer rejects the body's shape and is not to be stamped. -/
def Request.rejectsBody (r : Request env) (res : Response) : Bool :=
  r.requireObjectBody && !res.ok && !(r.body.any env.isObject)

/-- Run the handler. -/
def handle : Write Response := do
  let _ ← perform .startHandler
  match (← perform .awaitHandler).outcome with
  | .ok res => return res
  | .error message => throw (.handler message)

/-- A claimed write: the handler, then the stamp, in the `try` of `withIdempotentWrite`. -/
def runClaimed (r : Request env) (recordId : ℕ) : Write Reply :=
  (handle.bind fun res =>
    if r.rejectsBody res then (abandonIdempotent recordId).bind fun _ => .ret (.answered res)
    else (completeIdempotent recordId res).bind fun _ => .ret (.answered res)).handle
  fun e => (abandonIdempotent recordId).bind fun _ => .throw e

/-- `withIdempotentWrite`, of a request with a key. -/
def withIdempotentWrite (r : Request env) : Write Reply := do
  match ← perform .beginWrite with
  | some refusal => return .refused refusal
  | none =>
    if IDEMPOTENCY_KEY_MAX_LENGTH < env.key.val.length then
      return .refused (apiError .invalidRequest
        (some s!"Idempotency-Key must be at most {IDEMPOTENCY_KEY_MAX_LENGTH} characters"))
    else
      match ← beginIdempotent r.route (env.hashRequest r.body) with
      | .replay response => return .replayed response
      | .mismatch => return .refused (apiError .idempotencyConflict)
      | .inFlight => return .refused (apiError .conflict
          (some "a request with this Idempotency-Key is still in flight"))
      | .fresh recordId => runClaimed r recordId

/-- Any number of requests with one key. -/
@[reducible] def service (env : Keying) : Service where
  E := recordEffects
  State := RecordState
  Choice := RecordChoice
  exec i o c s := some (o.exec i c s)
  Outside := Tick
  outside x s := some (x.exec s)
  Request := Request env
  Fault := Fault
  Result := Reply
  program _ r := withIdempotentWrite r

end SettlementOS.Program.Idempotency
