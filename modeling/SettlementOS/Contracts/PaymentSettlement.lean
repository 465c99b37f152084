import SettlementOS.Contracts.MockERC20

/-!
# `PaymentSettlement`

The escrow contract (`contracts/PaymentSettlement.sol`) among the tokens it may hold.
`Escrow.World` is the storage of the contract with every `MockERC20` deployed
so far; the four payment calls and the two admin setters follow the source line by line,
and `Escrow.machine` adds the calls any account may make on the tokens and the
deployment of further ones.
-/

set_option autoImplicit false

namespace SettlementOS.Contracts

open SettlementOS.Computation

/-- `bytes32` -/
def Bytes32 : Type := Fin (2 ^ 256)

instance : DecidableEq Bytes32 := inferInstanceAs (DecidableEq (Fin (2 ^ 256)))
instance : Fintype Bytes32 := inferInstanceAs (Fintype (Fin (2 ^ 256)))

/-- The word of a small number. -/
def Bytes32.ofNat (n : ℕ) : Bytes32 := Fin.ofNat (2 ^ 256) n

/-- `PaymentState` -/
inductive PaymentState where
  | NONE | INITIATED | SETTLED | CANCELLED | REFUNDED | FAILED
deriving DecidableEq, Repr

/-- `Payment` -/
structure EscrowPayment where
  sender : Address
  recipient : Address
  asset : Address
  amount : Uint256
  state : PaymentState
deriving DecidableEq

/-- What the escrow contract emits. -/
inductive EscrowEvent where
  | operatorSet (operator : Address) (enabled : Bool)
  | assetApproved (asset : Address) (enabled : Bool)
  | paymentInitiated (paymentId : Bytes32) (sender recipient asset : Address) (amount : Uint256)
      (sourceCurrency destinationCurrency : String)
  | paymentSettled (paymentId routeId : Bytes32) (settledAmount : Uint256)
      (destinationAsset : String)
  | paymentCancelled (paymentId : Bytes32)
  | paymentRefunded (paymentId : Bytes32) (refundedTo : Address) (amount : Uint256)
  | paymentFailed (paymentId : Bytes32) (reason : String)
deriving DecidableEq

namespace Escrow

/-- The storage of `PaymentSettlement`. -/
structure Storage where
  admin : Address
  operators : Address → Bool
  approvedAssets : Address → Bool
  payments : Bytes32 → EscrowPayment

/-- A log, with the token it comes from or from the escrow contract itself. -/
inductive Log where
  | token (asset : Address) (event : TokenEvent)
  | escrow (event : EscrowEvent)
deriving DecidableEq

/-- The contract and the tokens deployed so far. -/
structure World where
  storage : Storage
  tokens : Address → Option MockERC20

/-- The token at `asset` after one of its calls. -/
def World.setToken (w : World) (asset : Address) (t : MockERC20) : World :=
  { w with tokens := Function.update w.tokens asset (some t) }

/-- Call the token at `asset`; an address without one reverts the caller. -/
def World.callToken {α : Type} (w : World) (asset : Address)
    (f : MockERC20 → Except Revert (MockERC20 × α)) : Except Revert (World × α) :=
  match w.tokens asset with
  | none => .error .noContract
  | some t => do
    let (t, a) ← f t
    return (w.setToken asset t, a)

/-- `payments[paymentId] = p` -/
def World.setPayment (w : World) (paymentId : Bytes32) (p : EscrowPayment) : World :=
  { w with
    storage := { w.storage with payments := Function.update w.storage.payments paymentId p } }

/-- A payment nobody wrote. -/
def noPayment : EscrowPayment where
  sender := Address.ofNat 0
  recipient := Address.ofNat 0
  asset := Address.ofNat 0
  amount := 0
  state := .NONE

/-- The constructor, with no token deployed yet. -/
def deployed (msgSender : Address) : World where
  storage :=
    { admin := msgSender
      operators := Function.update (fun _ => false) msgSender true
      approvedAssets := fun _ => false
      payments := fun _ => noPayment }
  tokens := fun _ => none

/-- `onlyAdmin` -/
def onlyAdmin (w : World) (msgSender : Address) : Except Revert Unit :=
  require (msgSender = w.storage.admin) "not admin"

/-- `onlyOperator` -/
def onlyOperator (w : World) (msgSender : Address) : Except Revert Unit :=
  require (w.storage.operators msgSender = true) "not operator"

/-- `setOperator` -/
def setOperator (w : World) (msgSender operator : Address) (enabled : Bool) :
    Except Revert (World × List Log) := do
  onlyAdmin w msgSender
  let operators := Function.update w.storage.operators operator enabled
  return ({ w with storage := { w.storage with operators := operators } },
    [.escrow (.operatorSet operator enabled)])

/-- `setApprovedAsset` -/
def setApprovedAsset (w : World) (msgSender asset : Address) (enabled : Bool) :
    Except Revert (World × List Log) := do
  onlyAdmin w msgSender
  let approvedAssets := Function.update w.storage.approvedAssets asset enabled
  return ({ w with storage := { w.storage with approvedAssets := approvedAssets } },
    [.escrow (.assetApproved asset enabled)])

/-- `initiatePayment` -/
def initiatePayment (contract : Address) (w : World) (msgSender : Address) (paymentId : Bytes32)
    (sender recipient asset : Address) (amount : Uint256)
    (sourceCurrency destinationCurrency : String) : Except Revert (World × List Log) := do
  onlyOperator w msgSender
  require ((w.storage.payments paymentId).state = .NONE) "payment exists"
  require (w.storage.approvedAssets asset = true) "asset not approved"
  require (0 < amount.val) "zero amount"
  let w := w.setPayment paymentId
    { sender := sender, recipient := recipient, asset := asset, amount := amount,
      state := .INITIATED }
  let (w, ok, logs) ← w.callToken asset fun t => t.transferFrom contract sender contract amount
  require (ok = true) "escrow transfer failed"
  return (w, logs.map (.token asset) ++ [.escrow (.paymentInitiated paymentId sender recipient
    asset amount sourceCurrency destinationCurrency)])

/-- The part the three ways out of escrow share: an INITIATED payment moves to `state` and its
amount goes to the address `payee` reads off it. -/
def release (contract : Address) (w : World) (msgSender : Address) (paymentId : Bytes32)
    (state : PaymentState) (payee : EscrowPayment → Address) (failed : String)
    (events : EscrowPayment → List EscrowEvent) : Except Revert (World × List Log) := do
  onlyOperator w msgSender
  let p := w.storage.payments paymentId
  require (p.state = .INITIATED) "not initiated"
  let w := w.setPayment paymentId { p with state := state }
  let (w, ok, logs) ← w.callToken p.asset fun t => t.transfer contract (payee p) p.amount
  require (ok = true) failed
  return (w, logs.map (.token p.asset) ++ (events p).map .escrow)

/-- `settlePayment` -/
def settlePayment (contract : Address) (w : World) (msgSender : Address)
    (paymentId routeId : Bytes32) (releaseTo : Address) (settledAmount : Uint256)
    (destinationAsset : String) : Except Revert (World × List Log) :=
  release contract w msgSender paymentId .SETTLED (fun _ => releaseTo) "release transfer failed"
    fun _ => [.paymentSettled paymentId routeId settledAmount destinationAsset]

/-- `cancelPayment` -/
def cancelPayment (contract : Address) (w : World) (msgSender : Address) (paymentId : Bytes32) :
    Except Revert (World × List Log) :=
  release contract w msgSender paymentId .CANCELLED (fun p => p.sender) "cancel refund failed"
    fun _ => [.paymentCancelled paymentId]

/-- `failAndRefund` -/
def failAndRefund (contract : Address) (w : World) (msgSender : Address) (paymentId : Bytes32)
    (reason : String) : Except Revert (World × List Log) :=
  release contract w msgSender paymentId .REFUNDED (fun p => p.sender) "refund failed"
    fun p => [.paymentFailed paymentId reason, .paymentRefunded paymentId p.sender p.amount]

/-! ## Every call that may arrive -/

/-- A call on the contract or on a token. -/
inductive Request where
  | setOperator (operator : Address) (enabled : Bool)
  | setApprovedAsset (asset : Address) (enabled : Bool)
  | initiatePayment (paymentId : Bytes32) (sender recipient asset : Address) (amount : Uint256)
      (sourceCurrency destinationCurrency : String)
  | settlePayment (paymentId routeId : Bytes32) (releaseTo : Address) (settledAmount : Uint256)
      (destinationAsset : String)
  | cancelPayment (paymentId : Bytes32)
  | failAndRefund (paymentId : Bytes32) (reason : String)
  | token (asset : Address) (request : MockERC20.Request)
  /-- deploy a token at an address that has none -/
  | deployToken (asset : Address)

/-- A call by an account other than the contract, which makes no call on itself and none on a
token but those above. -/
structure Call (contract : Address) where
  msgSender : Outside contract
  request : Request

/-- Execute a call. -/
def exec (contract : Address) (w : World) (c : Call contract) : Except Revert (World × List Log) :=
  let msgSender := c.msgSender.val
  match c.request with
  | .setOperator operator enabled => setOperator w msgSender operator enabled
  | .setApprovedAsset asset enabled => setApprovedAsset w msgSender asset enabled
  | .initiatePayment paymentId sender recipient asset amount source destination =>
    initiatePayment contract w msgSender paymentId sender recipient asset amount source destination
  | .settlePayment paymentId routeId releaseTo settledAmount destinationAsset =>
    settlePayment contract w msgSender paymentId routeId releaseTo settledAmount destinationAsset
  | .cancelPayment paymentId => cancelPayment contract w msgSender paymentId
  | .failAndRefund paymentId reason => failAndRefund contract w msgSender paymentId reason
  | .token asset request => do
    let (w, logs) ← w.callToken asset fun t => t.serve msgSender request
    return (w, logs.map (.token asset))
  | .deployToken asset => do
    require (asset ≠ contract ∧ w.tokens asset = none) "address taken"
    return (w.setToken asset .deployed, [])

/-- The escrow contract among its tokens. -/
abbrev machine (contract : Address) : Machine where
  World := World
  Call := Call contract
  Log := Log
  exec := exec contract

/-- Everything that happens after `contract` was deployed by `deployer`. -/
def history (contract deployer : Address) (calls : List (Call contract)) :
    Ledger (machine contract) :=
  Ledger.run ⟨deployed deployer, []⟩ calls

end Escrow

end SettlementOS.Contracts
