import SettlementOS.Computation.Service
import SettlementOS.Model.Auth
import SettlementOS.Model.Fx
import SettlementOS.Model.Saga

/-!
# The rows a new payment is written to (`app/api/payments/route.ts`, `prisma/schema.prisma`)

The entities, the payments and the audit log, by the statements of the route. A statement may fail
before it took effect or after. Entities are enrolled while the route is served, and stay.
-/

set_option autoImplicit false

namespace SettlementOS.Model.Creation

open SettlementOS.Computation

/-- What a deploy says: the network registry, and what `deployments.json` has. -/
structure Deploy where
  /-- `NETWORKS` -/
  networks : Network → Option NetworkInfo
  /-- `Object.keys(NETWORKS)` -/
  networkIds : List Network
  /-- `isChainReady` -/
  isChainReady : Bool
  /-- `loadDeployments` -/
  deployments : Deployments

/-! ## Lookups

`NETWORKS`, `CURRENCY_TO_ASSET` and what `deployments.json` is parsed into are plain objects: a
lookup finds what they inherit as well, under names that are in none of them. -/

/-- The names of what every object inherits. -/
def inheritedNames : List String :=
  ["constructor", "__defineGetter__", "__defineSetter__", "hasOwnProperty", "__lookupGetter__",
    "__lookupSetter__", "isPrototypeOf", "propertyIsEnumerable", "toString", "valueOf",
    "__proto__", "toLocaleString"]

/-- Whether a lookup finds something: an entry of the object's own, or an inherited one. -/
def found {α : Type} (own : Option α) (name : String) : Bool :=
  own.isSome || inheritedNames.contains name

/-! ## Rows -/

/-- `Payment`, as the route creates it. -/
structure CreatedPayment where
  senderId : String
  payment : NewPayment
  sourceAsset : AssetSymbol
  destinationAsset : AssetSymbol
  purpose : String
  referenceId : String
  memo : String
  deriving DecidableEq, Repr

/-- The rows. -/
structure CreationState where
  entities : List Entity
  payments : List CreatedPayment
  events : List AuditRecord

/-! ## Statements -/

/-- The statements. -/
inductive CreationStmt where
  /-- `entity.findUnique`, by its id -/
  | findEntity (id : String)
  /-- `entity.findUnique`, by its external id -/
  | findByExternalId (externalId : String)
  /-- `randomBytes(6)`, in hexadecimal -/
  | randomId
  /-- the transaction that creates the payment and writes its event -/
  | create (row : CreatedPayment) (event : AuditRecord)
  deriving DecidableEq, Repr

/-- What a statement that succeeds answers. -/
@[reducible] def CreationStmt.Result : CreationStmt → Type
  | .findEntity _ => Option Entity
  | .findByExternalId _ => Option Entity
  | .randomId => String
  | .create .. => PaymentStatus

/-- The statements and their answers. -/
@[reducible] def creationEffects : Effects where
  Stmt := CreationStmt
  Answer o := Except Err o.Result

/-- What the outside decides about one statement. -/
structure CreationChoice where
  /-- it fails and takes no effect -/
  fails : Option String := none
  /-- it takes effect, and its caller is told otherwise -/
  unconfirmed : Option String := none
  /-- the random bytes -/
  hex : String := ""

/-- What a statement does and answers. -/
def perform : (o : CreationStmt) → CreationChoice → CreationState →
    Except Err o.Result × CreationState
  | .findEntity id, _, s => (.ok (s.entities.find? fun e => e.id = id), s)
  | .findByExternalId externalId, _, s =>
    (.ok (s.entities.find? fun e => e.externalId = externalId), s)
  | .randomId, c, s => (.ok c.hex, s)
  | .create row event, _, s =>
    -- the primary key
    if s.payments.any fun old => old.payment.id = row.payment.id then
      (.error (.error "Unique constraint failed"), s)
    else
      (.ok row.payment.row.status,
        { s with payments := s.payments ++ [row], events := s.events ++ [event] })

/-- A statement, as it goes. -/
def exec (o : CreationStmt) (c : CreationChoice) (s : CreationState) :
    Except Err o.Result × CreationState :=
  match c.fails, c.unconfirmed with
  | some message, _ => (.error (.error message), s)
  | none, some message => (.error (.error message), (perform o c s).2)
  | none, none => perform o c s

/-- The action of a payment's first event. -/
def createdAction : String := "payment.created"

/-- What others do. -/
inductive Outsider where
  /-- an entity is created -/
  | enroll (entity : Entity)
  /-- another event is written -/
  | audit (record : AuditRecord)

/-- What it does: an id, or an external id, is given once, and only the route writes the first event
of a payment. -/
def outsider : Outsider → CreationState → Option CreationState
  | .enroll entity, s =>
    if s.entities.any fun e => e.id = entity.id ∨ e.externalId = entity.externalId then none
    else some { s with entities := s.entities ++ [entity] }
  | .audit record, s =>
    if record.action = createdAction then none else some { s with events := s.events ++ [record] }

end SettlementOS.Model.Creation
