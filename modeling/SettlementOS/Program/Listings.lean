import SettlementOS.Computation.Paging
import SettlementOS.Model.Audit
import SettlementOS.Program.TenantRoutes

/-!
# The lists that are read page by page (`app/api/payments`, `app/api/audit`)

What a client that follows `next_cursor` reads of an answer, and the list of the audit log, which
only the platform's own roles are given. What that route says of the log's integrity is left out.
-/

set_option autoImplicit false

namespace SettlementOS.Program

open SettlementOS.Computation Model

/-! ## Payments -/

/-- The id of a new payment, of six random bytes. -/
def newPaymentId (bytes : List (Fin 256)) : String :=
  "pay_" ++ String.ofList (bytes.flatMap fun b =>
    [Nat.digitChar (b.val / 16), Nat.digitChar (b.val % 16)])

/-- Where a payment stands in a list: when it was created, and its id. -/
def positionOf (row : PaymentRecord) : ℕ × String := (row.createdAt, row.payment.id)

/-- `createdAt` descending, then `id` descending, of positions. -/
def newestLe (sys : Backend) (u v : ℕ × String) : Bool :=
  decide (v.1 < u.1) || (u.1 = v.1 && sys.collate v.2 u.2)

/-- `has_more` -/
def Body.hasMore : Body → Bool
  | .payments page => page.hasMore
  | .entities page => page.hasMore
  | _ => false

/-- `next_cursor` -/
def Body.nextCursor : Body → Option String
  | .payments page => page.nextCursor
  | .entities page => page.nextCursor
  | _ => none

/-- Where the payments of a list stand. -/
def Body.positions : Body → List (ℕ × String)
  | .payments page => page.rows.map fun row => (row.createdAt, row.payment.id)
  | _ => []

/-- The ids of the payments of a list. -/
def Body.paymentIds (body : Body) : List String := body.positions.map Prod.snd

/-! ## The audit log -/

/-- The table of the audit events. -/
abbrev AuditEvents := Table fun (e : AuditEvent) => e.id

/-- `INT4_MAX` -/
def int4Max : ℕ := 2147483647

/-- The `cursorId` of a cursor. -/
def auditCursor (cursor : Option String) : Except ApiErrorResult (Option ℕ) :=
  match cursor with
  | none => .ok none
  | some cursor =>
    let n := digitsValue cursor.toList
    if !cursor.toList.all Char.isDigit || decide (int4Max < n) then
      .error (invalidRequest "cursor is not valid")
    else .ok (some n)

/-- `id` descending. -/
def latestLe (u v : ℕ) : Bool := decide (v ≤ u)

/-- `GET /api/audit`, the events. -/
def listAuditRoute (events : AuditEvents) (principal : Principal) (limit cursor : Option String) :
    Except ApiErrorResult (Page AuditEvent) := do
  requireRole principal [.operator, .reviewer]
  let page ← (parsePageRequest limit cursor).mapError badPage
  let cursorId ← auditCursor page.cursor
  let rows := events.findMany (fun a b => latestLe a.id b.id) (fun _ => true) cursorId
    (if cursorId.isSome then 1 else 0) (page.limit + 1)
  return toPage rows page.limit fun e => toString e.id

end SettlementOS.Program
