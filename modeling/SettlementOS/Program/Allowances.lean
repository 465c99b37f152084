import SettlementOS.Model.Allowances
import SettlementOS.Model.Chain

/-!
# Allowing, then escrowing (`lib/chain.ts`, `lib/executor.ts`)

The step that takes a payment into escrow: the sender approves the escrow contract for this amount,
unless what it has allowed already suffices, and the operator escrows it. The lease of a payment
keeps no other payment of its sender from the same step.
-/

set_option autoImplicit false

namespace SettlementOS.Program.Allowances

open SettlementOS.Computation Model.Allowances
open Model (AssetSymbol Err Hash includes)
open Model.Treasury (DeployedToken)
open SettlementOS.Contracts (Address Bytes32 Outside)
open SettlementOS.Contracts.Escrow (Call)

/-- The sender: its external id, and the wallet its row has on the network. -/
structure Sender where
  externalId : String
  wallet : Address
  deriving DecidableEq

/-- A payment, as far as this step reads it. -/
structure Payment where
  id : String
  /-- `onchainPaymentId` of it -/
  onchainId : Bytes32
  recipientWallet : Address
  amount : String
  /-- `toBaseUnits` of the amount -/
  amountUnits : ℕ
  sourceCurrency : String
  destinationCurrency : String
  deriving DecidableEq

/-- Code of this step. -/
abbrev Step (env : Env) (α : Type) := Prog (allowanceEffects env.contract) Err α

variable {env : Env}

/-- A statement: it answers, or throws. -/
def call (o : Stmt env.contract) : Step env o.Result := .perform o fun r => Prog.ofExcept r

/-- A computation that performs no statement. -/
def lift {α : Type} (x : Except Err α) : Step env α := Prog.ofExcept x

/-- The token of a symbol, or the error of its absence. -/
def tokenOn (env : Env) (symbol : AssetSymbol) : Except Err DeployedToken :=
  match env.tokens symbol with
  | some token => .ok token
  | none => .error (.error s!"Token {symbol.name} not deployed on {env.networkId}")

/-- The wallet of an entity, or the error of its absence. -/
def walletOf (env : Env) (entityExternalId : String) : Except Err (Outside env.contract) :=
  match env.entityWallets entityExternalId with
  | some wallet => .ok wallet
  | none => .error (.error s!"No wallet configured for {entityExternalId} on {env.networkId}")

/-- `ensureSenderAllowance` -/
def ensureSenderAllowance (env : Env) (entityExternalId : String) (symbol : AssetSymbol)
    (amount : ℕ) : Step env (Option Hash) := do
  let token ← lift (tokenOn env symbol)
  let sender ← lift (walletOf env entityExternalId)
  let allowed ← call (.allowance token.address sender)
  if amount ≤ allowed then return none
  else
    let hash ← call (.approve token.address sender amount)
    return some hash

/-- `retryOnReplicaLag`, with as many attempts left as `retries` says. -/
def retryOnReplicaLag {α : Type} (fn : Step env α) (isTransient : String → Bool) : ℕ → Step env α
  | 0 => fn
  | retries + 1 => fn.handle fun err =>
      if isTransient err.message then retryOnReplicaLag fn isTransient retries else .throw err

/-- The event of an approval. -/
def auditGranted (env : Env) (symbol : AssetSymbol) (payment : Payment) (hash : Hash) :
    Step env Unit :=
  call (.audit ⟨"payment.allowance_granted", "system", some payment.id,
    [("network", .str env.networkId), ("asset", .str symbol.name), ("amount", .str payment.amount),
      ("amountUnits", .str (toString payment.amountUnits)),
      ("spender", .str (toString (show Fin (2 ^ 160) from env.contract))),
      ("txHash", .hash hash)]⟩)

/-- The sender's allowance, and the event of a new one. -/
def grantAllowance (env : Env) (sender : Sender) (symbol : AssetSymbol) (payment : Payment) :
    Step env Unit := do
  match ← ensureSenderAllowance env sender.externalId symbol payment.amountUnits with
  | none => return
  | some hash => auditGranted env symbol payment hash

/-- `initiatePayment`, by `operatorWrite`. -/
def initiatePayment (env : Env) (sender : Sender) (token : Address) (payment : Payment) :
    Step env Hash :=
  retryOnReplicaLag
    (call (.initiatePayment payment.onchainId sender.wallet payment.recipientWallet token
      payment.amountUnits payment.sourceCurrency payment.destinationCurrency))
    (fun message => includes message "insufficient allowance") env.retries

/-- Allowance, then escrow. -/
def allowThenEscrow (env : Env) (sender : Sender) (symbol : AssetSymbol) (payment : Payment) :
    Step env Hash := do
  grantAllowance env sender symbol payment
  let token ← lift (tokenOn env symbol)
  initiatePayment env sender token.address payment

/-- The step for any number of payments of one sender and asset, interleaved, with whatever others
do to other allowances. -/
@[reducible] def service (env : Env) (sender : Sender) (symbol : AssetSymbol) : Service where
  E := allowanceEffects env.contract
  State := State env.contract
  Choice := Unit
  exec := fun _ o _ s => some (perform env o s)
  Outside := Call env.contract
  outside := fun c s =>
    match env.tokens symbol, env.entityWallets sender.externalId with
    | some token, some owner => interfere token.address owner.val c s
    | _, _ => none
  Request := Payment
  Fault := Err
  Result := Hash
  program := fun _ => allowThenEscrow env sender symbol

end SettlementOS.Program.Allowances
