import SettlementOS.Model.Payment

/-!
# The chains (`lib/chain.ts`, `contracts/PaymentSettlement.sol`)

What the program knows of its chains (`Deployments`), the transactions it sends, and what
the settlement contract makes of them. A transaction is sent first and mined later, in any
order; the contract's guards decide whether it succeeds, and a success moves the escrow of
the payment. A guard that holds does not make a transaction succeed: a token transfer
inside it may still fail.

Only the escrow of the one payment is followed: its id on the contract is a hash of the
payment's id, so no other payment's call can reach it.
-/

set_option autoImplicit false

namespace SettlementOS.Model

/-- `OnchainPaymentState`. -/
inductive OnchainPaymentState where
  | none
  | initiated
  | settled
  | cancelled
  | refunded
  | failed
  deriving DecidableEq, Repr

/-! ## Deployments -/

/-- A token contract on a network. -/
structure Token where
  address : String
  decimals : ℕ
  deriving DecidableEq, Repr

/-- `NetworkAccounts`, by address. -/
structure NetworkAccounts where
  operator : String
  treasury : String
  entityWallets : String → Option String

/-- `DeployedNetwork`. -/
structure DeployedNetwork where
  paymentSettlement : String
  tokens : AssetSymbol → Option Token
  accounts : Option NetworkAccounts := none

/-- `Deployments`. -/
structure Deployments where
  networks : Network → Option DeployedNetwork
  accounts : Option NetworkAccounts := none

/-- `NetworkInfo`, the fields the program reads. -/
structure NetworkInfo where
  live : Bool
  deriving DecidableEq, Repr

/-- What one payment is handled with: the deployments, the network registry, the hash
function and the two parties, none of which changes. -/
structure Env where
  deployments : Deployments
  /-- `isChainReady` -/
  isChainReady : Bool := true
  networks : Network → Option NetworkInfo
  keccak256 : String → String
  sender : Entity
  recipient : Entity

namespace Env

variable (env : Env)

/-- `networkContracts`. -/
def networkContracts (network : Network) : Except Err DeployedNetwork :=
  match env.deployments.networks network with
  | some net => .ok net
  | none => .error (.error
      s!"Network {network} not in deployments.json — re-run npm run setup")

/-- `accountsFor`. -/
def accountsFor (network : Network) : Except Err NetworkAccounts :=
  match ((env.deployments.networks network).bind DeployedNetwork.accounts) <|>
      env.deployments.accounts with
  | some accounts => .ok accounts
  | none => .error (.error s!"No accounts configured for network {network}")

/-- `dep.networks[network].contracts`: indexing a network that is not there throws. -/
def contracts (network : Network) : Except Err DeployedNetwork :=
  match env.deployments.networks network with
  | some net => .ok net
  | none => .error (.error "Cannot read properties of undefined (reading 'contracts')")

/-- `token.decimals`, of a token that may be undefined. -/
def decimalsOf (token : Option Token) : Except Err ℕ :=
  match token with
  | some token => .ok token.decimals
  | none => .error (.error "Cannot read properties of undefined (reading 'decimals')")

/-- `token.address`, of a token that may be undefined. -/
def addressOf (token : Option Token) : Except Err String :=
  match token with
  | some token => .ok token.address
  | none => .error (.error "Cannot read properties of undefined (reading 'address')")

/-- `onchainPaymentId`. -/
def onchainPaymentId (paymentId : String) : String := env.keccak256 paymentId

/-- `networkInfo`. -/
def networkInfo (network : Network) : Except Err NetworkInfo :=
  match env.networks network with
  | some info => .ok info
  | none => .error (.error s!"Unknown network {network}")

/-- `replicaLagRetries`. -/
def replicaLagRetries (network : Network) : Except Err ℕ :=
  if "fortel2-".toList.isPrefixOf network.toList then .ok 0
  else (env.networkInfo network).map fun info => if info.live then 4 else 0

end Env

/-- `message.includes(part)`. -/
def includes (message part : String) : Bool :=
  message.toList.tails.any fun rest => part.toList.isPrefixOf rest

/-! ## Transactions -/

/-- What a treasury transfer is for. The chain does not see it: the program makes the two
kinds of transfer in different places. -/
inductive Leg where
  /-- the payout on the destination network -/
  | destinationPayout
  /-- the make-good on the source network -/
  | compensation
  deriving DecidableEq, Repr

/-- A call the program sends a transaction for. -/
inductive Call where
  | approve (token owner spender : String) (amount : ℕ)
  | initiatePayment (paymentId sender recipient asset : String) (amount : ℕ)
      (sourceCurrency destinationCurrency : String)
  | settlePayment (paymentId routeId releaseTo : String) (settledAmount : ℕ)
      (destinationAsset : AssetSymbol)
  | failAndRefund (paymentId reason : String)
  | transfer (leg : Leg) (token recipient : String) (amount : ℕ)
  deriving DecidableEq, Repr

/-- The kinds of call. -/
inductive CallKind where
  | approve
  | initiate
  | settle
  | refund
  | payout
  | compensation
  deriving DecidableEq, Repr

/-- The kind of a call. -/
def Call.kind : Call → CallKind
  | .approve .. => .approve
  | .initiatePayment .. => .initiate
  | .settlePayment .. => .settle
  | .failAndRefund .. => .refund
  | .transfer .destinationPayout .. => .payout
  | .transfer .compensation .. => .compensation

/-- The guard the settlement contract checks before a call of this kind. -/
def CallKind.admitted : CallKind → OnchainPaymentState → Bool
  | .initiate, e => e == .none
  | .settle, e => e == .initiated
  | .refund, e => e == .initiated
  | .approve, _ => true
  | .payout, _ => true
  | .compensation, _ => true

/-- The escrow's state after a call of this kind succeeds. -/
def CallKind.effect : CallKind → OnchainPaymentState → OnchainPaymentState
  | .initiate, _ => .initiated
  | .settle, _ => .settled
  | .refund, _ => .refunded
  | .approve, e => e
  | .payout, e => e
  | .compensation, e => e

/-- A receipt. -/
structure Receipt where
  success : Bool
  blockNumber : ℕ
  gasUsed : ℕ
  deriving DecidableEq, Repr

/-- A transaction that was sent; it has a receipt once it is mined. -/
structure Tx where
  network : Network
  call : Call
  receipt : Option Receipt
  deriving DecidableEq, Repr

/-- `TransactionOutcome`. -/
inductive TransactionOutcome where
  | confirmed
  | reverted
  | absent
  | unknown
  deriving DecidableEq, Repr

/-- The outcome's name, as messages quote it. -/
def TransactionOutcome.name : TransactionOutcome → String
  | .confirmed => "confirmed"
  | .reverted => "reverted"
  | .absent => "absent"
  | .unknown => "unknown"

end SettlementOS.Model
