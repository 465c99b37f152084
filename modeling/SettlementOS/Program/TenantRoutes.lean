import SettlementOS.Model.Tenancy
import SettlementOS.Program.Idempotency

/-!
# The routes and tools a tenant reaches (`app/api/payments`, `app/api/entities`, `lib/mcp/tools.ts`)

Everything that takes the id of a payment, or a cursor, from a caller that may be a tenant: the
reads over HTTP, the same reads as tools, and the writes of a payment up to where the caller has
been let through. What is done then is in `SettlementOS.Program.Requests`; here it is a parameter.
-/

set_option autoImplicit false

namespace SettlementOS.Program

open SettlementOS.Computation Model

/-! ## The database and what the routes rest on -/

/-- The tables, and the idempotency record of each key of an API key. No id is empty. -/
structure Tables where
  entities : Entities
  payments : Payments
  records : String → Idempotency.Key → RecordState
  entityIds : ∀ row ∈ entities.rows, row.entity.id ≠ ""
  paymentIds : ∀ row ∈ payments.rows, row.payment.id ≠ ""

/-- The body of an answer. -/
inductive Body where
  | payment (view : PaymentView)
  | payments (page : Page PaymentSummary)
  | entities (page : Page EntityRow)
  /-- what a write answers whoever it lets through -/
  | written (json : String)
  deriving DecidableEq, Repr

/-- A body, or the error that is answered instead. -/
abbrev Answer := Except ApiErrorResult Body

/-- The parsed body of an execution: the field that is read, and the text that is hashed. -/
structure ExecuteBody where
  routeId : Option String
  text : String
  isObject : Bool
  deriving DecidableEq, Repr

/-- The writes of a payment a tenant may call. -/
inductive Write where
  | quote
  | cancel
  | execute (body : Option ExecuteBody)
  deriving DecidableEq, Repr

/-- What the routes rest on. -/
structure Backend where
  /-- the order of the database on ids -/
  collate : String → String → Bool
  /-- what a write does once its caller is let through -/
  serve : Tables → Principal → PaymentRecord → Write → Answer
  /-- `NextResponse.json` -/
  render : Answer → Response
  /-- `hashRequest`, of the body of an execution -/
  hashRequest : Option ExecuteBody → String

variable (sys : Backend) (db : Tables) (principal : Principal)

/-! ## Reads -/

/-- A row with its parties. -/
def summaryOf (row : PaymentRecord) : PaymentSummary where
  payment := scrubFailureReason principal row.payment
  senderId := row.senderId
  createdAt := row.createdAt
  sender := (db.entities.find row.senderId).map EntityRow.entity
  recipient := (db.entities.find row.payment.recipientId).map EntityRow.entity

/-- A row with all it owns. -/
def viewOf (row : PaymentRecord) : PaymentView where
  summary := summaryOf db principal row
  complianceChecks := row.complianceChecks
  auditEvents := scrubAuditDetail principal row.auditEvents
  ledgerCredits := row.ledgerCredits
  reservation := row.reservation

/-- `GET /api/payments/[id]`. -/
def getPaymentRoute (id : String) : Answer :=
  match db.payments.find id with
  | none => .error notFound
  | some row =>
    if isPlatformRole principal ∨ principal.entityId = some row.senderId ∨
        principal.entityId = some row.payment.recipientId then
      .ok (.payment (viewOf db principal row))
    else .error notFound

/-- `getPayment` of the tools. -/
def getPaymentTool (id : String) : Answer :=
  match db.payments.findFirst id (paymentScopeWhere principal) with
  | none => .error notFound
  | some row => .ok (.payment (viewOf db principal row))

/-- `createdAt` descending, then `id` descending. -/
def newestFirst (a b : PaymentRecord) : Bool :=
  decide (b.createdAt < a.createdAt) ||
    (a.createdAt = b.createdAt && sys.collate b.payment.id a.payment.id)

/-- `createdAt` ascending, then `id` ascending. -/
def oldestFirst (a b : EntityRow) : Bool :=
  decide (a.createdAt < b.createdAt) ||
    (a.createdAt = b.createdAt && sys.collate a.entity.id b.entity.id)

/-- The `skip` that goes with a cursor. -/
def skipOf (cursor : Option String) : ℕ := if cursor.isSome then 1 else 0

/-- The page of payments a request is answered with. -/
def paymentsPage (page : PageRequest) : Body :=
  let rows := db.payments.findMany (newestFirst sys) (visiblePaymentsWhere principal) page.cursor
    (skipOf page.cursor) (page.limit + 1)
  let found := toPage rows page.limit fun row => row.payment.id
  .payments ⟨found.rows.map (summaryOf db principal), found.nextCursor, found.hasMore⟩

/-- The page of entities a request is answered with. -/
def entitiesPage (page : PageRequest) : Body :=
  .entities (toPage (db.entities.findMany (oldestFirst sys) (entityScopeWhere principal)
    page.cursor (skipOf page.cursor) (page.limit + 1)) page.limit fun row => row.entity.id)

/-- What an invalid page request is answered with. -/
def badPage (message : String) : ApiErrorResult := invalidRequest message

/-- `assertTenantCursor`: a tenant's cursor is one of the rows it may see. -/
def assertTenantCursor (cursor : Option String) (inScope : String → Bool) :
    Except ApiErrorResult Unit :=
  match cursor with
  | none => .ok ()
  | some id =>
    if isPlatformRole principal ∨ inScope id then .ok ()
    else .error (invalidRequest "cursor is not valid")

/-- A payment the caller may see has the id. -/
def paymentInScope (id : String) : Bool :=
  (db.payments.findFirst id (visiblePaymentsWhere principal)).isSome

/-- An entity the caller may see has the id. -/
def entityInScope (id : String) : Bool :=
  (db.entities.findFirst id (entityScopeWhere principal)).isSome

/-- `GET /api/payments`. -/
def listPaymentsRoute (limit cursor : Option String) : Answer := do
  let page ← (parsePageRequest limit cursor).mapError badPage
  assertTenantCursor principal page.cursor (paymentInScope db principal)
  return paymentsPage sys db principal page

/-- `listPayments` of the tools. -/
def listPaymentsTool (limit : Option ℤ) (cursor : Option String) : Answer := do
  let page ← (pageFromArgs limit cursor).mapError badPage
  assertTenantCursor principal page.cursor (paymentInScope db principal)
  return paymentsPage sys db principal page

/-- `GET /api/entities`. Nothing is asked of the cursor. -/
def listEntitiesRoute (limit cursor : Option String) : Answer := do
  let page ← (parsePageRequest limit cursor).mapError badPage
  return entitiesPage sys db principal page

/-- `listEntities` of the tools. -/
def listEntitiesTool (limit : Option ℤ) (cursor : Option String) : Answer := do
  let page ← (pageFromArgs limit cursor).mapError badPage
  assertTenantCursor principal page.cursor (entityInScope db principal)
  return entitiesPage sys db principal page

/-! ## Writes -/

/-- The handler of a write: the payment is looked up, and the caller let through or not. -/
def writePayment (id : String) (w : Write) : Answer :=
  match db.payments.find id with
  | none => .error notFound
  | some row => do
    authorizePaymentWrite principal row.senderId row.payment.recipientId
    sys.serve db principal row w

/-- A write behind the rate limit. -/
def limitedWrite (limited : Option ApiErrorResult) (id : String) (w : Write) : Answer :=
  match limited with
  | some refusal => .error refusal
  | none => writePayment sys db principal id w

/-- The keyed form of an execution, for the wrapper. -/
def executeKeying (key : Idempotency.Key) : Idempotency.Keying where
  Body := ExecuteBody
  key := key
  hashRequest := sys.hashRequest
  isObject := ExecuteBody.isObject

/-- The request an execution of this payment makes of the wrapper. -/
def executeRequest (key : Idempotency.Key) (id : String) (body : Option ExecuteBody) :
    Idempotency.Request (executeKeying sys key) where
  route := s!"POST /api/payments/{id}/execute"
  body := body
  requireObjectBody := false

/-- What the wrapper makes of an answer of its handler, on the key's record. -/
def keyedReply (record : RecordState) (limited : Option ApiErrorResult) (key : Idempotency.Key)
    (id : String) (body : Option ExecuteBody) (answer : Answer) :
    Except Idempotency.Fault Idempotency.Reply :=
  let choice : RecordChoice := { refused := limited, handler := ⟨.ok (sys.render answer), true⟩ }
  ((Idempotency.withIdempotentWrite (executeRequest sys key id body)).alone
    (fun (o : RecordStmt) s => o.exec 0 choice s) record).1

/-- `POST execute` with a key. -/
def keyedExecute (limited : Option ApiErrorResult) (key : Idempotency.Key) (id : String)
    (body : Option ExecuteBody) : Except Idempotency.Fault Idempotency.Reply :=
  keyedReply sys (db.records principal.keyId key) limited key id body
    (writePayment sys db principal id (.execute body))

/-! ## What takes an id -/

/-- The routes and tools that take the id of a payment or a cursor, with what else they are
asked. -/
inductive Endpoint where
  | getPayment
  | quotePayment (limited : Option ApiErrorResult)
  | cancelPayment (limited : Option ApiErrorResult)
  | executePayment (limited : Option ApiErrorResult) (key : Option Idempotency.Key)
      (body : Option ExecuteBody)
  | listPayments (limit : Option String)
  | listEntities (limit : Option String)
  | getPaymentTool
  | listPaymentsTool (limit : Option ℤ)
  | listEntitiesTool (limit : Option ℤ)

/-- What comes back. -/
inductive Outcome where
  | answer (answer : Answer)
  | keyed (reply : Except Idempotency.Fault Idempotency.Reply)

/-- What a caller gets for an id. -/
def Endpoint.respond (id : String) : Endpoint → Outcome
  | .getPayment => .answer (getPaymentRoute db principal id)
  | .quotePayment limited => .answer (limitedWrite sys db principal limited id .quote)
  | .cancelPayment limited => .answer (limitedWrite sys db principal limited id .cancel)
  | .executePayment limited none body =>
    .answer (limitedWrite sys db principal limited id (.execute body))
  | .executePayment limited (some key) body =>
    .keyed (keyedExecute sys db principal limited key id body)
  | .listPayments limit => .answer (listPaymentsRoute sys db principal limit (some id))
  | .listEntities limit => .answer (listEntitiesRoute sys db principal limit (some id))
  | .getPaymentTool => .answer (Program.getPaymentTool db principal id)
  | .listPaymentsTool limit => .answer (Program.listPaymentsTool sys db principal limit (some id))
  | .listEntitiesTool limit => .answer (Program.listEntitiesTool sys db principal limit (some id))

/-- Whether an endpoint is about an entity, and not a payment. -/
def Endpoint.ofEntities : Endpoint → Bool
  | .listEntities _ => true
  | .listEntitiesTool _ => true
  | _ => false

end SettlementOS.Program
