import SettlementOS.Model.Money

/-!
# What a client may see of an error (`lib/api-errors.ts`)

The stable codes, their statuses, and the canned message of each where a route has not
chosen one itself.
-/

set_option autoImplicit false

namespace SettlementOS.Model

/-- `STATUS` -/
def ApiErrorCode.status : ApiErrorCode → Nat
  | .unauthorized => 401
  | .forbidden => 403
  | .notFound => 404
  | .invalidRequest => 400
  | .conflict => 409
  | .idempotencyConflict => 422
  | .payloadTooLarge => 413
  | .rateLimited => 429
  | .executionFailed => 500
  | .internal => 500

/-- `CANNED` -/
def ApiErrorCode.canned : ApiErrorCode → String
  | .unauthorized => "unauthorized"
  | .forbidden => "forbidden"
  | .notFound => "not found"
  | .invalidRequest => "invalid request"
  | .conflict => "the request conflicts with the current state of the resource"
  | .idempotencyConflict => "this Idempotency-Key was already used for a different request"
  | .payloadTooLarge => "request body is too large"
  | .rateLimited => "too many requests"
  | .executionFailed => "execution failed"
  | .internal => "internal error"

/-- `ApiErrorResult` -/
structure ApiErrorResult where
  status : Nat
  code : ApiErrorCode
  message : String
deriving DecidableEq, Repr

/-- `apiError` -/
def apiError (code : ApiErrorCode) (message : Option String := none) : ApiErrorResult :=
  ⟨code.status, code, message.getD code.canned⟩

end SettlementOS.Model
