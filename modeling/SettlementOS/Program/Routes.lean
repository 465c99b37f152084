import SettlementOS.Computation.Admission
import SettlementOS.Model.Auth
import SettlementOS.Program.Requests

/-!
# The routes of a payment (`app/api/payments/[id]`, `app/api/guard.ts`)

Each route decides by the caller's role, and the writes of the tenants by who the parties of the
payment are, whether there is a request at all; the parties never change. What the request is
served with is in `SettlementOS.Program.Requests`.
-/

set_option autoImplicit false

namespace SettlementOS.Program

open SettlementOS.Computation Model

/-- The routes, with what the body says. -/
inductive Route where
  | execute (routeId : Option String)
  | cancel
  | review (decision note : String)
  | quote
  | repair
  | reconcile
  deriving DecidableEq, Repr

/-- A call of a route by an identified caller. -/
structure ApiCall where
  principal : Principal
  route : Route
  deriving DecidableEq, Repr

/-- The decision of a review, as the body spells it. -/
def parseDecision (decision : String) : Except ApiErrorResult Bool :=
  if decision = "approve" then .ok true
  else if decision = "reject" then .ok false
  else .error (invalidRequest "decision must be 'approve' or 'reject'")

/-- A write of a payment's party, once the caller is let through. -/
def partyWrite (env : Env) (principal : Principal) (request : Request) :
    Except ApiErrorResult Request :=
  (authorizePaymentWrite principal env.sender.id env.recipient.id).map fun _ => request

/-- A write of the operator. -/
def operatorOnly (principal : Principal) (request : Request) : Except ApiErrorResult Request :=
  (requireRole principal [.operator]).map fun _ => request

/-- The request a call makes, or what it is refused with. The actor is who the key says, never
what the body claims. -/
def routeRequest (env : Env) (principal : Principal) : Route → Except ApiErrorResult Request
  | .execute routeId => partyWrite env principal (.execute (actorOf principal) routeId)
  | .cancel => partyWrite env principal (.cancel (actorOf principal))
  | .quote => partyWrite env principal (.quote (actorOf principal))
  | .review decision note => do
    requireRole principal [.reviewer, .operator]
    let approve ← parseDecision decision
    return .review (actorOf principal) approve note
  | .repair => operatorOnly principal .repair
  | .reconcile => operatorOnly principal .reconcile

/-- The calls that are let in. -/
def grant (env : Env) (call : ApiCall) : Option Request :=
  (routeRequest env call.principal call.route).toOption

/-- The payment's service behind its routes. -/
abbrev Desk (env : Env) := Service.Desk (sagaService env) ApiCall

/-- What a value that was let through is. -/
theorem eq_of_map {α : Type} {x : Except ApiErrorResult Unit} {a b : α}
    (h : (x.map fun _ => a).toOption = some b) : a = b := by
  cases x with
  | error e => cases h
  | ok u =>
    cases h
    rfl

/-- A review is made by a reviewer or an operator, and by nobody else. -/
theorem role_of_review {env : Env} {call : ApiCall} {actor : String} {approve : Bool}
    {note : String} (h : grant env call = some (.review actor approve note)) :
    call.principal.role ∈ [Role.reviewer, .operator] ∧ actor = actorOf call.principal := by
  obtain ⟨principal, route⟩ := call
  cases route with
  | review decision note =>
    simp only [grant, routeRequest] at h
    cases hrole : requireRole principal [.reviewer, .operator] with
    | error e =>
      rw [hrole] at h
      cases h
    | ok u =>
      rw [hrole] at h
      cases hdecision : parseDecision decision with
      | error e =>
        rw [hdecision] at h
        cases h
      | ok approve =>
        rw [hdecision] at h
        cases h
        exact ⟨role_of_requireRole hrole, rfl⟩
  | _ => cases eq_of_map h

/-- An execution is what the execute route asks for. -/
theorem route_of_execute {env : Env} {call : ApiCall} {actor : String}
    {routeId : Option String} (h : grant env call = some (.execute actor routeId)) :
    ∃ routeId, call.route = .execute routeId := by
  obtain ⟨principal, route⟩ := call
  cases route with
  | execute routeId => exact ⟨routeId, rfl⟩
  | review decision note =>
    simp only [grant, routeRequest] at h
    cases hrole : requireRole principal [.reviewer, .operator] <;>
      cases hdecision : parseDecision decision <;> rw [hrole, hdecision] at h <;> cases h
  | _ => cases eq_of_map h

end SettlementOS.Program
