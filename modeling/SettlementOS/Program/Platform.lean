import SettlementOS.Program.Requests
import SettlementOS.Program.Treasury

/-!
# All payments and the treasury (`lib/executor.ts`, `lib/treasury.ts`)

Any number of payments, the treasury's operations on one network, and the liquidity they share.
An execution's question for the free balance of that network is `freeTreasuryBalance` of the
treasury, which reads the chain and then the reservations of all payments; and what it recalls is
recalled there.

A token moves on a chain in its own time: what is mined for a payment, and what else anybody does
with the token, are calls by others.
-/

set_option autoImplicit false

namespace SettlementOS.Program.Platform

open SettlementOS.Computation Model
open SettlementOS.Contracts (Address MockERC20)

/-- The statements: of a payment, or of the treasury. -/
inductive Stmt where
  | payment (id : ℕ) (o : Model.Stmt)
  | treasury (o : Treasury.Stmt)

/-- What a statement that succeeds answers. -/
@[reducible] def Stmt.Result : Stmt → Type
  | .payment _ o => o.Result
  | .treasury o => o.Result

/-- The statements and their answers. -/
@[reducible] def platformEffects : Effects where
  Stmt := Stmt
  Answer o := Except Err o.Result

/-- What a payment is, apart from its state. -/
structure Account where
  env : Model.Env
  new : NewPayment

/-- What the platform runs with: its treasury, and the payments that will be created. -/
structure Setup where
  treasury : Treasury.Env
  accounts : ℕ → Account
  /-- both have the network's tokens from one `deployments.json` -/
  decimals : ∀ id net symbol token,
    (accounts id).env.deployments.networks treasury.networkId = some net →
      net.tokens symbol = some token →
      ∃ deployed, treasury.tokens symbol = some deployed ∧ deployed.decimals = token.decimals
  /-- no two assets are one token -/
  distinct : ∀ symbol symbol' token token', treasury.tokens symbol = some token →
    treasury.tokens symbol' = some token' → token.address = token'.address → symbol = symbol'

/-- The rows and the chains. -/
structure State where
  /-- the payments that have been created -/
  payments : List Model.State
  treasury : Treasury.State

/-- The reservation rows of a network. -/
def State.reservations (s : State) (network : Network) : List Treasury.Reserved :=
  s.payments.filterMap fun p =>
    (p.reservation.filter fun r => r.network = network).map fun r => ⟨r.asset, r.amount, r.status⟩

/-- What the treasury finds: the reservations are those of the payments. -/
def State.found (setup : Setup) (s : State) : Treasury.State :=
  { s.treasury with reservations := s.reservations setup.treasury.networkId }

/-- What the outside decides about one statement. -/
structure Choice where
  payment : Model.Choice := {}
  treasury : Treasury.Choice := .done

/-- One statement. -/
def exec (setup : Setup) : (o : Stmt) → Choice → State → Option (Except Err o.Result × State)
  | .payment id o, c, s =>
    match s.payments[id]? with
    | some p =>
      (o.exec c.payment p).map fun r => (r.1, { s with payments := s.payments.set id r.2 })
    | none => none
  | .treasury o, c, s =>
    let r := Treasury.exec setup.treasury o c.treasury (s.found setup)
    some (r.1, { s with treasury := r.2 })

/-- What happens by itself. -/
inductive Outside where
  /-- the next payment is created -/
  | create
  /-- a transaction of a payment is mined -/
  | mine (id : ℕ) (m : Mining)
  | entities (rows : List Treasury.ParkingEntity)
  /-- a call on the fund's asset by an account other than the fund -/
  | asset (msgSender : Address) (request : MockERC20.Request)
  /-- the other tokens move -/
  | others (tokens : Address → MockERC20)

/-- What it does. -/
def outside (setup : Setup) : Outside → State → Option State
  | .create, s =>
    some { s with payments := s.payments ++ [State.created (setup.accounts s.payments.length).new] }
  | .mine id m, s =>
    (s.payments[id]?.bind m.exec).map fun p => { s with payments := s.payments.set id p }
  | .entities rows, s =>
    (Treasury.interfere setup.treasury (.entities rows) s.treasury).map fun t =>
      { s with treasury := t }
  | .asset msgSender request, s =>
    (Treasury.interfere setup.treasury (.asset msgSender request) s.treasury).map fun t =>
      { s with treasury := t }
  | .others tokens, s => some { s with treasury := { s.treasury with others := tokens } }

/-- An operation of the treasury, on the platform. -/
def ofTreasury {α : Type} (p : Treasury.Operation α) : Prog platformEffects Err α :=
  p.interpret fun o => .perform (.treasury o) .ret

/-- A statement of an execution, on the platform. What is parked is the outside's to say: an
execution only asks whether there is something. -/
def carry (setup : Setup) (id : ℕ) :
    (o : Model.Stmt) → Prog platformEffects Empty (Except Err o.Result)
  | .freeTreasuryBalance network symbol =>
    if network = setup.treasury.networkId then
      (ofTreasury (Treasury.freeTreasuryBalance setup.treasury symbol)).attempt.bind fun r =>
        .ret (r.map fun b => ⟨b.balance, b.reserved, b.free⟩)
    else .perform (.payment id (.freeTreasuryBalance network symbol)) .ret
  | .recallForPayment network asset amount =>
    if network = setup.treasury.networkId then
      (ofTreasury (Treasury.recallForPayment setup.treasury
        ⟨asset.name, amount, (setup.accounts id).new.id⟩)).attempt.bind fun r =>
          .ret (r.map fun _ => ())
    else .perform (.payment id (.recallForPayment network asset amount)) .ret
  | o => .perform (.payment id o) .ret

/-- The requests. -/
inductive Request where
  | payment (id : ℕ) (r : Program.Request)
  | treasury (r : Treasury.Request)

/-- What a request is answered with. -/
inductive Reply where
  | payment (reply : Program.Reply)
  | treasury (response : Treasury.Response)

/-- The program that serves a request. -/
def program (setup : Setup) (i : ℕ) : Request → Prog platformEffects Err Reply
  | .payment id r =>
    ((r.program (setup.accounts id).env i).interpret (carry setup id)).bind fun a =>
      .ret (.payment a)
  | .treasury r => (ofTreasury (Treasury.serve setup.treasury r)).bind fun a => .ret (.treasury a)

/-- The platform. -/
@[reducible] def service (setup : Setup) : Service where
  E := platformEffects
  State := State
  Choice := Choice
  exec _ o c s := exec setup o c s
  Outside := Outside
  outside := outside setup
  Request := Request
  Fault := Err
  Result := Reply
  program := program setup

end SettlementOS.Program.Platform
