import SettlementOS.Computation.Contract

/-!
# `MockERC20`

The mintable stablecoin every settlement asset is (`contracts/MockERC20.sol`): balances,
allowances, the total supply, and the calls that move them. A call takes the token, its
caller where the source reads `msg.sender`, and its arguments. `name`, `symbol` and
`decimals` are set once and read by none of these calls, so they are left out.
-/

set_option autoImplicit false

namespace SettlementOS.Contracts

open SettlementOS.Computation

/-- An account or contract address. -/
def Address : Type := Fin (2 ^ 160)

instance : DecidableEq Address := inferInstanceAs (DecidableEq (Fin (2 ^ 160)))
instance : Fintype Address := inferInstanceAs (Fintype (Fin (2 ^ 160)))

/-- The address of a small number. -/
def Address.ofNat (n : ℕ) : Address := Fin.ofNat (2 ^ 160) n

/-- An account other than `contract`, whose calls are not that contract's own. -/
abbrev Outside (contract : Address) : Type := { a : Address // a ≠ contract }

/-- What a token emits. -/
inductive TokenEvent where
  | transfer (src dst : Address) (value : Uint256)
  | approval (owner spender : Address) (value : Uint256)
deriving DecidableEq

/-- The storage of `MockERC20`. -/
structure MockERC20 where
  totalSupply : Uint256
  balanceOf : Address → Uint256
  allowance : Address → Address → Uint256

namespace MockERC20

/-- The constructor. -/
def deployed : MockERC20 where
  totalSupply := 0
  balanceOf := fun _ => 0
  allowance := fun _ _ => 0

/-- `balanceOf[a] = v` -/
def setBalance (t : MockERC20) (a : Address) (v : Uint256) : MockERC20 :=
  { t with balanceOf := Function.update t.balanceOf a v }

/-- `allowance[owner][spender] = v` -/
def setAllowance (t : MockERC20) (owner spender : Address) (v : Uint256) : MockERC20 :=
  { t with
    allowance := Function.update t.allowance owner (Function.update (t.allowance owner) spender v) }

/-- `mint` -/
def mint (t : MockERC20) (dst : Address) (amount : Uint256) :
    Except Revert (MockERC20 × List TokenEvent) := do
  let supply ← t.totalSupply.add amount
  let t := { t with totalSupply := supply }
  let balance ← (t.balanceOf dst).add amount
  return (t.setBalance dst balance, [.transfer (Address.ofNat 0) dst amount])

/-- `_transfer`; it returns `true` whenever it returns. -/
def _transfer (t : MockERC20) (src dst : Address) (amount : Uint256) :
    Except Revert (MockERC20 × Bool × List TokenEvent) := do
  require (amount ≤ t.balanceOf src) "ERC20: insufficient balance"
  let debited ← (t.balanceOf src).sub amount
  let t := t.setBalance src debited
  let credited ← (t.balanceOf dst).add amount
  return (t.setBalance dst credited, true, [.transfer src dst amount])

/-- `transfer` -/
def transfer (t : MockERC20) (msgSender dst : Address) (amount : Uint256) :
    Except Revert (MockERC20 × Bool × List TokenEvent) :=
  t._transfer msgSender dst amount

/-- `approve` -/
def approve (t : MockERC20) (msgSender spender : Address) (amount : Uint256) :
    MockERC20 × Bool × List TokenEvent :=
  (t.setAllowance msgSender spender amount, true, [.approval msgSender spender amount])

/-- `transferFrom` -/
def transferFrom (t : MockERC20) (msgSender src dst : Address) (amount : Uint256) :
    Except Revert (MockERC20 × Bool × List TokenEvent) := do
  let allowed := t.allowance src msgSender
  require (amount ≤ allowed) "ERC20: insufficient allowance"
  let t ← if allowed ≠ Uint256.max then do
      let rest ← allowed.sub amount
      pure (t.setAllowance src msgSender rest)
    else pure t
  t._transfer src dst amount

/-! ## A call from outside -/

/-- What an account may ask of a token. -/
inductive Request where
  | mint (dst : Address) (amount : Uint256)
  | transfer (dst : Address) (amount : Uint256)
  | approve (spender : Address) (amount : Uint256)
  | transferFrom (src dst : Address) (amount : Uint256)

/-- Execute a request. -/
def serve (t : MockERC20) (msgSender : Address) :
    Request → Except Revert (MockERC20 × List TokenEvent)
  | .mint dst amount => t.mint dst amount
  | .transfer dst amount => do
    let (t, _, logs) ← t.transfer msgSender dst amount
    return (t, logs)
  | .approve spender amount =>
    let (t, _, logs) := t.approve msgSender spender amount
    return (t, logs)
  | .transferFrom src dst amount => do
    let (t, _, logs) ← t.transferFrom msgSender src dst amount
    return (t, logs)

end MockERC20

end SettlementOS.Contracts
