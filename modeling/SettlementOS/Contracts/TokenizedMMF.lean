import SettlementOS.Contracts.MockERC20

/-!
# `TokenizedMMF`

The fund idle treasury balances are parked in (`contracts/TokenizedMMF.sol`), together
with the token it holds. Shares are priced off an index that the operator advances; a
subscription rounds the shares it mints down and a redemption the asset it pays down.
-/

set_option autoImplicit false

namespace SettlementOS.Contracts

open SettlementOS.Computation

/-- What the fund emits. -/
inductive FundEvent where
  | operatorSet (operator : Address) (enabled : Bool)
  | subscribed (account : Address) (assetAmount shares : Uint256)
  | redeemed (account : Address) (shares assetAmount : Uint256)
  | accrued (oldIndex newIndex : Uint256)
deriving DecidableEq

namespace Fund

/-- `INDEX_SCALE`: the index at par. -/
def INDEX_SCALE : Uint256 := ⟨10 ^ 18, by decide⟩

/-- The storage of `TokenizedMMF`. -/
structure Storage where
  admin : Address
  currentIndex : Uint256
  totalShares : Uint256
  operators : Address → Bool
  sharesOf : Address → Uint256

/-- A log of the fund or of its asset. -/
inductive Log where
  | token (event : TokenEvent)
  | fund (event : FundEvent)
deriving DecidableEq

/-- The fund and its asset. -/
structure World where
  storage : Storage
  asset : MockERC20

/-- `sharesOf[account] = v` -/
def World.setShares (w : World) (account : Address) (v : Uint256) : World :=
  { w with storage := { w.storage with sharesOf := Function.update w.storage.sharesOf account v } }

/-- `totalShares = v` -/
def World.setTotal (w : World) (v : Uint256) : World :=
  { w with storage := { w.storage with totalShares := v } }

/-- The constructor, over an asset nobody holds yet. -/
def deployed (msgSender : Address) : World where
  storage :=
    { admin := msgSender
      currentIndex := INDEX_SCALE
      totalShares := 0
      operators := Function.update (fun _ => false) msgSender true
      sharesOf := fun _ => 0 }
  asset := .deployed

/-- `onlyOperator` -/
def onlyOperator (w : World) (msgSender : Address) : Except Revert Unit :=
  require (w.storage.operators msgSender = true) "not operator"

/-- `setOperator` -/
def setOperator (w : World) (msgSender operator : Address) (enabled : Bool) :
    Except Revert (World × List Log) := do
  require (msgSender = w.storage.admin) "not admin"
  let operators := Function.update w.storage.operators operator enabled
  return ({ w with storage := { w.storage with operators := operators } },
    [.fund (.operatorSet operator enabled)])

/-- `subscribe` -/
def subscribe (contract : Address) (w : World) (msgSender onBehalfOf : Address)
    (assetAmount : Uint256) : Except Revert (World × Uint256 × List Log) := do
  onlyOperator w msgSender
  require (onBehalfOf ≠ Address.ofNat 0) "zero account"
  require (0 < assetAmount.val) "zero amount"
  let scaled ← assetAmount.mul INDEX_SCALE
  let shares ← scaled.div w.storage.currentIndex
  require (0 < shares.val) "zero shares"
  let owned ← (w.storage.sharesOf onBehalfOf).add shares
  let w := w.setShares onBehalfOf owned
  let total ← w.storage.totalShares.add shares
  let w := w.setTotal total
  let (asset, ok, logs) ← w.asset.transferFrom contract onBehalfOf contract assetAmount
  require (ok = true) "subscribe transfer failed"
  return ({ w with asset := asset }, shares,
    logs.map .token ++ [.fund (.subscribed onBehalfOf assetAmount shares)])

/-- `redeem` -/
def redeem (contract : Address) (w : World) (msgSender onBehalfOf : Address) (shares : Uint256) :
    Except Revert (World × Uint256 × List Log) := do
  onlyOperator w msgSender
  require (0 < shares.val) "zero shares"
  require (shares ≤ w.storage.sharesOf onBehalfOf) "insufficient shares"
  let scaled ← shares.mul w.storage.currentIndex
  let assetAmount ← scaled.div INDEX_SCALE
  let owned ← (w.storage.sharesOf onBehalfOf).sub shares
  let w := w.setShares onBehalfOf owned
  let total ← w.storage.totalShares.sub shares
  let w := w.setTotal total
  let (asset, ok, logs) ← w.asset.transfer contract onBehalfOf assetAmount
  require (ok = true) "redeem transfer failed"
  return ({ w with asset := asset }, assetAmount,
    logs.map .token ++ [.fund (.redeemed onBehalfOf shares assetAmount)])

/-- `accrue` -/
def accrue (w : World) (msgSender : Address) (newIndex : Uint256) :
    Except Revert (World × List Log) := do
  onlyOperator w msgSender
  require (w.storage.currentIndex ≤ newIndex) "index must not decrease"
  let oldIndex := w.storage.currentIndex
  return ({ w with storage := { w.storage with currentIndex := newIndex } },
    [.fund (.accrued oldIndex newIndex)])

/-- `assetValueOf` -/
def assetValueOf (w : World) (account : Address) : Except Revert Uint256 := do
  let scaled ← (w.storage.sharesOf account).mul w.storage.currentIndex
  scaled.div INDEX_SCALE

/-- `yieldBuffer` -/
def yieldBuffer (contract : Address) (w : World) : Except Revert Uint256 := do
  let held := w.asset.balanceOf contract
  let scaled ← w.storage.totalShares.mul w.storage.currentIndex
  let owed ← scaled.div INDEX_SCALE
  if owed < held then held.sub owed else return 0

/-! ## Every call that may arrive -/

/-- A call on the fund or on its asset. -/
inductive Request where
  | setOperator (operator : Address) (enabled : Bool)
  | subscribe (onBehalfOf : Address) (assetAmount : Uint256)
  | redeem (onBehalfOf : Address) (shares : Uint256)
  | accrue (newIndex : Uint256)
  | asset (request : MockERC20.Request)

/-- A call by an account other than the fund. -/
structure Call (contract : Address) where
  msgSender : Outside contract
  request : Request

/-- Execute a call. -/
def exec (contract : Address) (w : World) (c : Call contract) :
    Except Revert (World × List Log) :=
  let msgSender := c.msgSender.val
  match c.request with
  | .setOperator operator enabled => setOperator w msgSender operator enabled
  | .subscribe onBehalfOf assetAmount => do
    let (w, _, logs) ← subscribe contract w msgSender onBehalfOf assetAmount
    return (w, logs)
  | .redeem onBehalfOf shares => do
    let (w, _, logs) ← redeem contract w msgSender onBehalfOf shares
    return (w, logs)
  | .accrue newIndex => accrue w msgSender newIndex
  | .asset request => do
    let (asset, logs) ← w.asset.serve msgSender request
    return ({ w with asset := asset }, logs.map .token)

/-- The fund with its asset. -/
abbrev machine (contract : Address) : Machine where
  World := World
  Call := Call contract
  Log := Log
  exec := exec contract

/-- Everything that happens after the fund at `contract` was deployed by `deployer`. -/
def history (contract deployer : Address) (calls : List (Call contract)) :
    Ledger (machine contract) :=
  Ledger.run ⟨deployed deployer, []⟩ calls

end Fund

end SettlementOS.Contracts
