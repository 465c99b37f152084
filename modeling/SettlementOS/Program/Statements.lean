import SettlementOS.Model.Fx
import SettlementOS.Model.Saga

/-!
# Single statements and the functions around them (`lib/transitions.ts`, `lib/chain.ts`)

A `Saga` performs statements on one payment and throws `Err`. Here are the functions
that wrap one or two statements: the compare-and-swap every status change goes through,
the audit call, the execution lease, and the calls to a node.
-/

set_option autoImplicit false

namespace SettlementOS.Program

open SettlementOS.Computation Model

/-- Code that runs on one payment. -/
abbrev Saga (α : Type) := Prog sagaEffects Err α

/-- Perform one statement; what it throws is thrown. -/
def call (o : Stmt) : Saga o.Result := .perform o fun r => Prog.ofExcept r

/-- A computation that performs no statement. -/
def lift {α : Type} (x : Except Err α) : Saga α := Prog.ofExcept x

/-- `audit`, in a transaction of its own. -/
def audit (action : String) (detail : Detail) (paymentId : String) : Saga Unit :=
  call (.audit ⟨action, "system", some paymentId, detail⟩)

/-! ## Status changes -/

/-- `transitionStatus`. -/
def transitionStatus (payment : Payment) (next : PaymentStatus) (opts : TransitionOpts) :
    Saga Payment :=
  if canTransition payment.status next then
    (call (.transition payment.status next opts)).bind fun
      | some updated => .ret updated
      | none => .throw (.staleTransition payment.id)
  else .throw (.error
    s!"Invalid payment state transition: {payment.status.name} → {next.name}")

/-- `setStatus`. -/
def setStatus (payment : Payment) (next : PaymentStatus) (dbData : PaymentPatch)
    (auditDetail : Detail) : Saga Payment :=
  transitionStatus payment next { data := dbData, detail := auditDetail }

/-- `withExecutionLease`. The lease id is the attempt's own: no two attempts draw the same
one. -/
def withExecutionLease {α : Type} (paymentId : String) (leaseId : ℕ) (status : PaymentStatus)
    (fn : Saga α) : Saga α := do
  let claimed ← call (.claimLease leaseId status)
  if claimed then fn.andFinally (call (.releaseLease leaseId)).ignoring
  else throw (.executionLease paymentId)

/-! ## Calls to a node -/

/-- `TxResult`. -/
structure TxResult where
  hash : Hash
  blockNumber : ℕ
  gasUsed : ℕ
  deriving DecidableEq, Repr

/-- `confirm`. -/
def confirm (network : Network) (hash : Hash) : Saga TxResult := do
  let receipt ← call (.waitForTransactionReceipt network hash)
  if receipt.success then return ⟨hash, receipt.blockNumber, receipt.gasUsed⟩
  else throw (.error s!"Transaction {hash} reverted on {network}")

/-- What a receipt says, when there is one. -/
def outcomeOf : Option Receipt → TransactionOutcome
  | none => .absent
  | some receipt => if receipt.success then .confirmed else .reverted

/-- `transactionOutcome`. -/
def transactionOutcome (network : Network) (hash : Hash) : Saga TransactionOutcome :=
  ((call (.getTransactionReceipt network hash)).bind fun receipt =>
    .ret (outcomeOf receipt)).handle fun _ => .ret .unknown

/-- `onchainPaymentState(...).catch(() => null)`. -/
def readEscrow (env : Env) (network : Network) : Saga (Option OnchainPaymentState) :=
  ((lift (env.contracts network)).bind fun _ =>
    (call (.getPayment network)).bind fun state => .ret (some state)).handle fun _ => .ret none

/-- `retryOnReplicaLag`, with as many attempts left as `retries` says. -/
def retryOnReplicaLag {α : Type} (fn : Saga α) (isTransient : String → Bool) :
    ℕ → Saga α
  | 0 => fn
  | retries + 1 => fn.handle fun err =>
      if isTransient err.message then retryOnReplicaLag fn isTransient retries
      else .throw err

/-- The message that may come of a lagging replica, by the function called. -/
def replicaLagMessage (c : Call) (message : String) : Bool :=
  if c.kind = .initiate then includes message "insufficient allowance"
  else includes message "not initiated"

/-- `operatorWrite`. -/
def operatorWrite (env : Env) (network : Network) (c : Call) : Saga TxResult := do
  let _ ← lift (env.accountsFor network)
  let retries ← lift (env.replicaLagRetries network)
  let hash ← retryOnReplicaLag
    ((lift (env.contracts network)).bind fun _ => call (.writeContract network c))
    (replicaLagMessage c) retries
  confirm network hash

/-- The token of a symbol on a network, or the error of its absence. -/
def tokenOn (net : DeployedNetwork) (network : Network) (symbol : AssetSymbol) :
    Except Err Token :=
  match net.tokens symbol with
  | some token => .ok token
  | none => .error (.error s!"Token {symbol.name} not deployed on {network}")

/-- `ensureSenderAllowance`. -/
def ensureSenderAllowance (env : Env) (network : Network) (entityExternalId : String)
    (symbol : AssetSymbol) (amount : ℕ) : Saga (Option TxResult) := do
  let contracts ← lift (env.networkContracts network)
  let token ← lift (tokenOn contracts network symbol)
  let accounts ← lift (env.accountsFor network)
  match accounts.entityWallets entityExternalId with
  | none => throw (.error s!"No wallet configured for {entityExternalId} on {network}")
  | some sender =>
    let allowed ← call (.allowance network token.address sender contracts.paymentSettlement)
    if amount ≤ allowed then return none
    else
      let hash ← call (.writeContract network
        (.approve token.address sender contracts.paymentSettlement amount))
      let tx ← confirm network hash
      return some tx

/-- `treasuryTokenTransfer`, up to the transaction being sent. -/
def treasuryTokenTransfer (env : Env) (leg : Leg) (network : Network) (symbol : AssetSymbol)
    (recipient : String) (amount : ℕ) : Saga Hash := do
  let contracts ← lift (env.contracts network)
  let token ← lift (tokenOn contracts network symbol)
  let _ ← lift (env.accountsFor network)
  call (.writeContract network (.transfer leg token.address recipient amount))

end SettlementOS.Program
