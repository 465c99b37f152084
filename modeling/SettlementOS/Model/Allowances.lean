import SettlementOS.Contracts.PaymentSettlement
import SettlementOS.Model.Treasury

/-!
# The allowances of the entity wallets (`lib/chain.ts`)

What the executor reads and writes to take a payment into escrow: the sender's allowance on its
token, the approval and the escrow itself, over the contracts of one network with everything that
has been called on them. Every transaction is confirmed before its call returns; one that would
revert is refused when its gas is estimated and never sent.
-/

set_option autoImplicit false

namespace SettlementOS.Model.Allowances

open SettlementOS.Computation
open SettlementOS.Contracts (Address Bytes32 Outside)
open SettlementOS.Contracts.Escrow (machine)
open Model.Treasury (DeployedToken encode refusal)

/-- What the executor knows of the network. -/
structure Env where
  networkId : Network
  /-- `PaymentSettlement` -/
  contract : Address
  tokens : AssetSymbol → Option DeployedToken
  operator : Outside contract
  entityWallets : String → Option (Outside contract)
  /-- `replicaLagRetries` -/
  retries : ℕ

/-- The network's contracts with their receipts, and the audit log. -/
structure State (contract : Address) where
  chain : Ledger (machine contract)
  /-- the audit events, oldest first -/
  events : List AuditRecord

/-- The statements. -/
inductive Stmt (contract : Address) where
  /-- the `allowance` an owner has given the escrow contract on a token -/
  | allowance (token : Address) (owner : Outside contract)
  /-- the owner approves the escrow contract -/
  | approve (token : Address) (owner : Outside contract) (amount : ℕ)
  /-- `audit` in a transaction of its own -/
  | audit (record : AuditRecord)
  /-- the operator takes a payment into escrow -/
  | initiatePayment (paymentId : Bytes32) (sender recipient asset : Address) (amount : ℕ)
      (sourceCurrency destinationCurrency : String)

/-- What a statement that succeeds answers. -/
@[reducible] def Stmt.Result {contract : Address} : Stmt contract → Type
  | .allowance .. => ℕ
  | .approve .. => Hash
  | .audit _ => Unit
  | .initiatePayment .. => Hash

/-- The statements and their answers: a result, or what is thrown. -/
@[reducible] def allowanceEffects (contract : Address) : Effects where
  Stmt := Stmt contract
  Answer := fun o => Except Err o.Result

namespace State

variable {contract : Address}

/-- What an owner has allowed the escrow contract to draw, where the token is deployed. -/
def allowance (s : State contract) (token owner : Address) : Option ℕ :=
  (s.chain.world.tokens token).map fun t => (t.allowance owner contract).val

/-- What an owner has of a token. -/
def balance (s : State contract) (token owner : Address) : ℕ :=
  match s.chain.world.tokens token with
  | some t => (t.balanceOf owner).val
  | none => 0

/-- A call that the node accepts is confirmed; one that would revert is refused. -/
def submit (s : State contract) (c : Contracts.Escrow.Call contract) :
    Except Err Hash × State contract :=
  match Contracts.Escrow.exec contract s.chain.world c with
  | .error e => (.error (refusal e), s)
  | .ok (world, logs) =>
    (.ok s.chain.receipts.length, { s with chain := ⟨world, ⟨c, logs⟩ :: s.chain.receipts⟩ })

end State

/-- What a statement does and answers. -/
def perform (env : Env) : (o : Stmt env.contract) → State env.contract →
    Except Err o.Result × State env.contract
  | .allowance token owner, s =>
    match s.allowance token owner.val with
    | none => (.error (refusal .noContract), s)
    | some allowed => (.ok allowed, s)
  | .approve token owner amount, s =>
    match encode amount with
    | .error e => (.error e, s)
    | .ok amount => s.submit ⟨owner, .token token (.approve env.contract amount)⟩
  | .audit record, s => (.ok (), { s with events := s.events ++ [record] })
  | .initiatePayment paymentId sender recipient asset amount source destination, s =>
    match encode amount with
    | .error e => (.error e, s)
    | .ok amount =>
      s.submit ⟨env.operator,
        .initiatePayment paymentId sender recipient asset amount source destination⟩

/-- A call of the admin, or one that takes a payment into escrow. -/
def administers {contract : Address} (c : Contracts.Escrow.Call contract) : Bool :=
  match c.request with
  | .setOperator .. | .setApprovedAsset .. | .initiatePayment .. => true
  | _ => false

/-- What others do: any other call that leaves an owner's allowance and its tokens alone. -/
def interfere {contract : Address} (token owner : Address) (c : Contracts.Escrow.Call contract)
    (s : State contract) : Option (State contract) :=
  if administers c then none
  else match s.submit c with
    | (.error _, _) => none
    | (.ok _, s') =>
      if s'.allowance token owner = s.allowance token owner ∧
          s.balance token owner ≤ s'.balance token owner then some s'
      else none

end SettlementOS.Model.Allowances
