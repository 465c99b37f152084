import SettlementOS.Computation.Table
import SettlementOS.Model.Auth
import SettlementOS.Model.Pagination
import SettlementOS.Model.Payment

/-!
# What a tenant sees (`lib/session.ts`, `lib/networks.ts`, `app/api/guard.ts`)

The rows of the two tables a tenant has a part of, the filters its reads go through, and what is
taken out of a row before a tenant gets it.

A filter of the database drops a condition whose value is undefined: a principal without an
entity would be scoped to nothing at all.
-/

set_option autoImplicit false

namespace SettlementOS.Model

open SettlementOS.Computation

/-- A row of `Entity`, with its ledger credits. -/
structure EntityRow where
  entity : Entity
  ledgerCredits : List LedgerCredit := []
  createdAt : ℕ
  deriving DecidableEq, Repr

/-- A row of `Payment`, with the rows it owns. -/
structure PaymentRecord where
  payment : Payment
  senderId : String
  createdAt : ℕ
  complianceChecks : List ComplianceCheck := []
  auditEvents : List AuditRecord := []
  ledgerCredits : List LedgerCredit := []
  reservation : Option LiquidityReservation := none
  deriving DecidableEq, Repr

/-- The table of the entities. -/
abbrev Entities := Table fun (row : EntityRow) => row.entity.id

/-- The table of the payments. -/
abbrev Payments := Table fun (row : PaymentRecord) => row.payment.id

/-! ## Scopes -/

/-- The entity of a principal is this one. -/
def actsFor (principal : Principal) (id : String) : Bool :=
  match principal.entityId with
  | some entityId => id = entityId
  | none => true

/-- `paymentScopeWhere`. -/
def paymentScopeWhere (principal : Principal) (row : PaymentRecord) : Bool :=
  isPlatformRole principal ||
    (actsFor principal row.senderId || actsFor principal row.payment.recipientId)

/-- `FORTEL2_SEPOLIA_REGENESIS_AT`. -/
def fortel2SepoliaRegenesisAt : ℕ := 1787433288000

/-- `excludeSupersededByRegenesisWhere`. -/
def excludeSupersededByRegenesisWhere (row : PaymentRecord) : Bool :=
  !(decide (row.createdAt < fortel2SepoliaRegenesisAt) &&
    (row.payment.sourceNetwork = "fortel2-sepolia" ||
      row.payment.destinationNetwork = "fortel2-sepolia"))

/-- `visiblePaymentsWhere`. -/
def visiblePaymentsWhere (principal : Principal) (row : PaymentRecord) : Bool :=
  paymentScopeWhere principal row && excludeSupersededByRegenesisWhere row

/-- The filter of the entity lists. -/
def entityScopeWhere (principal : Principal) (row : EntityRow) : Bool :=
  isPlatformRole principal || actsFor principal row.entity.id

/-! ## What is shown -/

/-- `SAFE_FAILURE_SUMMARY`. -/
def safeFailureSummary : String :=
  "Payment could not be completed. Contact your operator for details."

/-- `scrubFailureReason`. -/
def scrubFailureReason (principal : Principal) (payment : Payment) : Payment :=
  if isPlatformRole principal || payment.failureReason.isNone then payment
  else { payment with failureReason := some safeFailureSummary }

/-- An audit event as it is shown. -/
structure SeenEvent where
  action : String
  actor : String
  /-- `none`: the detail is redacted -/
  detail : Option Detail
  deriving DecidableEq, Repr

/-- `scrubAuditDetail`. -/
def scrubAuditDetail (principal : Principal) (events : List AuditRecord) : List SeenEvent :=
  events.map fun event =>
    ⟨event.action, event.actor, if isPlatformRole principal then some event.detail else none⟩

/-- A payment of a list, with its parties. -/
structure PaymentSummary where
  payment : Payment
  senderId : String
  createdAt : ℕ
  sender : Option Entity
  recipient : Option Entity
  deriving DecidableEq, Repr

/-- A payment with all it owns. -/
structure PaymentView where
  summary : PaymentSummary
  complianceChecks : List ComplianceCheck
  auditEvents : List SeenEvent
  ledgerCredits : List LedgerCredit
  reservation : Option LiquidityReservation
  deriving DecidableEq, Repr

/-! ## Tenants -/

/-- The key of an entity is a key with an entity. -/
theorem entityId_of_key {keys : List ApiKey} {keyHash : String} {principal : Principal}
    (h : principalForKey keys keyHash = some principal) (hrole : principal.role = .entity) :
    ∃ entityId, principal.entityId = some entityId := by
  simp only [principalForKey, Option.bind_eq_bind, Option.bind_eq_some_iff] at h
  obtain ⟨record, -, role, -, h⟩ := h
  split at h
  · cases h
  · rename_i hscoped
    cases h
    simp only [not_and] at hscoped
    exact Option.ne_none_iff_exists'.mp (hscoped hrole)

end SettlementOS.Model
