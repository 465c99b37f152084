import SettlementOS.Model.Api

/-!
# Who is calling, and what they may do (`lib/auth.ts`, `app/api/guard.ts`)

A caller presents a key, and its principal is who the key says it is. A tenant is a principal
that acts for one entity; the platform's own roles act for none.
-/

set_option autoImplicit false

namespace SettlementOS.Model

/-- `Role`. -/
inductive Role where
  | operator
  | reviewer
  | entity
  deriving DecidableEq, Repr

/-- The role as the key's row spells it. -/
def Role.name : Role → String
  | .operator => "OPERATOR"
  | .reviewer => "REVIEWER"
  | .entity => "ENTITY"

/-- `Principal`. -/
structure Principal where
  keyId : String
  role : Role
  /-- set only for an `ENTITY` -/
  entityId : Option String := none
  label : String
  deriving DecidableEq, Repr

/-- `isPlatformRole`. -/
def isPlatformRole (principal : Principal) : Bool :=
  principal.role = .operator || principal.role = .reviewer

/-- `ApiKey`, the columns a lookup reads. -/
structure ApiKey where
  id : String
  keyHash : String
  role : String
  entityId : Option String
  label : String

/-- `isRole`, with the role it is. -/
def parseRole (value : String) : Option Role :=
  [Role.operator, .reviewer, .entity].find? fun role => role.name = value

/-- `principalForKey`, with the rows of the keys and the hash of the one presented. An entity's
key without an entity is no identity. -/
def principalForKey (keys : List ApiKey) (keyHash : String) : Option Principal := do
  let record ← keys.find? fun key => key.keyHash = keyHash
  let role ← parseRole record.role
  -- an empty id is no id
  let entityId := record.entityId.filter (· ≠ "")
  if role = .entity ∧ entityId = none then none
  else some { keyId := record.id, role := role, entityId := entityId, label := record.label }

/-- `actorOf`. -/
def actorOf (principal : Principal) : String := s!"{principal.label} ({principal.role.name})"

/-- `unauthorized`. -/
def unauthorized : ApiErrorResult := apiError .unauthorized

/-- `forbidden`. -/
def forbidden : ApiErrorResult := apiError .forbidden

/-- `notFound`. -/
def notFound : ApiErrorResult := apiError .notFound

/-- `invalidRequest`. -/
def invalidRequest (message : String) : ApiErrorResult := apiError .invalidRequest (some message)

/-- `requireRole`, of a caller that was identified. -/
def requireRole (principal : Principal) (roles : List Role) : Except ApiErrorResult Unit :=
  if principal.role ∈ roles then .ok () else .error forbidden

/-- `authorizePaymentWrite`. -/
def authorizePaymentWrite (principal : Principal) (senderId recipientId : String) :
    Except ApiErrorResult Unit :=
  match principal.role with
  | .operator => .ok ()
  | .reviewer => .error forbidden
  | .entity =>
    if principal.entityId = some senderId then .ok ()
    else if principal.entityId = some recipientId then .error forbidden
    else .error notFound

/-- Whoever is let through has the role. -/
theorem role_of_requireRole {principal : Principal} {roles : List Role}
    (h : requireRole principal roles = .ok ()) : principal.role ∈ roles := by
  unfold requireRole at h
  split at h
  · assumption
  · cases h

end SettlementOS.Model
