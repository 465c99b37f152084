import SettlementOS.Computation.Service
import SettlementOS.Contracts.TokenizedMMF
import SettlementOS.Model.Payment

/-!
# The treasury's positions (`lib/treasury.ts`, `prisma/schema.prisma`)

Idle liquidity is parked in the fund of a network and recalled from it. A row remembers what each
position bought; the fund and its asset are the contracts themselves. Followed is one network: its
positions in the order they were created, the reservations on it, and its chain. The reservations,
the entities and the asset are also moved by others, as they please.

Creation and recall times are left out.
-/

set_option autoImplicit false

namespace SettlementOS.Model.Treasury

open SettlementOS.Computation
open SettlementOS.Contracts (Address MockERC20)
open SettlementOS.Contracts.Fund (World Log)

/-- A token of the network's deployment. -/
structure DeployedToken where
  address : Address
  decimals : ℕ
  deriving DecidableEq

/-- The accounts that sign for the network. -/
structure Signers where
  operator : Address
  treasury : Address
  deriving DecidableEq

/-- What the treasury knows of the network. -/
structure Env where
  networkId : Network
  /-- the fund's address, and whether the deployments list it -/
  fund : Address
  listed : Bool
  /-- `asset` of the fund, which never changes -/
  backing : Address
  tokens : AssetSymbol → Option DeployedToken
  signers : Signers

/-- `mmfAddress` -/
def Env.mmfAddress (env : Env) : Option Address := if env.listed then some env.fund else none

/-! ## Rows -/

/-- The status column of a position. -/
inductive PositionStatus where
  | active
  | recalled
  deriving DecidableEq, Repr

/-- The status as messages quote it. -/
def PositionStatus.name : PositionStatus → String
  | .active => "ACTIVE"
  | .recalled => "RECALLED"

/-- The columns a new position is created with. -/
structure NewPosition where
  asset : AssetSymbol
  shares : ℤ
  assetAmountIn : ℕ
  indexAtEntry : ℕ
  txHashPark : Hash
  deriving DecidableEq, Repr

/-- `TreasuryPosition` -/
structure Position extends NewPosition where
  id : ℕ
  status : PositionStatus := .active
  txHashRecall : Option Hash := none
  deriving DecidableEq, Repr

/-- A reservation on the network. -/
structure Reserved where
  asset : AssetSymbol
  amount : String
  status : ReservationStatus
  deriving DecidableEq, Repr

/-- `Entity`, the columns that say whether it may park. -/
structure ParkingEntity where
  id : String
  externalId : String
  mmfEligible : Bool
  mmfOptIn : Bool
  deriving DecidableEq, Repr

/-- The network's rows and its chain. -/
structure State where
  positions : List Position
  reservations : List Reserved
  entities : List ParkingEntity
  /-- the audit events, oldest first -/
  events : List AuditRecord
  /-- the fund, with its asset -/
  fund : World
  /-- the other tokens -/
  others : Address → MockERC20
  /-- what the fund and its asset have emitted, oldest first -/
  logs : List Log
  /-- how many transactions have succeeded -/
  sent : ℕ

namespace State

/-- The token at an address. -/
def token (env : Env) (s : State) (a : Address) : MockERC20 :=
  if a = env.backing then s.fund.asset else s.others a

/-- The `RESERVED` rows of an asset, by amount. -/
def reserved (s : State) (symbol : AssetSymbol) : List String :=
  (s.reservations.filter fun r => r.asset = symbol ∧ r.status = .reserved).map Reserved.amount

/-- The `ACTIVE` positions of an asset, oldest first. -/
def active (s : State) (symbol : AssetSymbol) : List Position :=
  s.positions.filter fun p => p.asset = symbol ∧ p.status = .active

end State

/-! ## Statements -/

/-- The statements. -/
inductive Stmt where
  /-- `entity.findFirst` by id or external id -/
  | findEntity (entityId : String)
  /-- `liquidityReservation.findMany` -/
  | findReservations (asset : AssetSymbol)
  /-- `treasuryPosition.findMany` of the active ones -/
  | findActive (asset : AssetSymbol)
  /-- `treasuryPosition.findUnique` -/
  | findPosition (id : ℕ)
  /-- the transaction that creates a position with its event -/
  | recordPark (row : NewPosition) (detail : Detail)
  /-- the transaction that marks a position recalled, with its event -/
  | recordRecall (id : ℕ) (txHash : Hash) (detail : Detail)
  /-- `audit` in a transaction of its own -/
  | audit (record : AuditRecord)
  /-- `asset` of the fund -/
  | asset
  /-- `currentIndex` of the fund -/
  | currentIndex
  /-- `sharesOf` the treasury -/
  | sharesOf
  /-- `balanceOf` the treasury -/
  | balanceOf (token : Address)
  /-- the treasury's `allowance` for the fund -/
  | allowance (token : Address)
  /-- the treasury approves the fund -/
  | approve (token : Address) (amount : ℕ)
  /-- the operator subscribes for the treasury -/
  | subscribe (assetAmount : ℕ)
  /-- the operator redeems for the treasury -/
  | redeem (shares : ℤ)
  /-- the operator accrues -/
  | accrue (newIndex : ℕ)
  deriving DecidableEq

/-- What a statement that succeeds answers. -/
@[reducible] def Stmt.Result : Stmt → Type
  | .findEntity _ => Option ParkingEntity
  | .findReservations _ => List String
  | .findActive _ => List Position
  | .findPosition _ => Option Position
  | .recordPark .. => ℕ
  | .recordRecall .. => Unit
  | .audit _ => Unit
  | .asset => Address
  | .currentIndex => ℕ
  | .sharesOf => ℕ
  | .balanceOf _ => ℕ
  | .allowance _ => ℕ
  | .approve .. => Hash
  | .subscribe _ => Hash
  | .redeem _ => Hash
  | .accrue _ => Hash

/-- The statements and their answers: a result, or what is thrown. -/
@[reducible] def treasuryEffects : Effects where
  Stmt := Stmt
  Answer := fun o => Except Err o.Result

/-! ## What statements do -/

/-- A revert, as a node reports it. -/
def refusal : Revert → Err
  | .reason text => .node s!"execution reverted: {text}"
  | .panic => .node "execution reverted: panic"
  | .noContract => .node "execution reverted"

/-- An argument of type `uint256`. -/
def encode (n : ℤ) : Except Err Uint256 :=
  if h : n.toNat < 2 ^ 256 then
    if 0 ≤ n then .ok ⟨n.toNat, h⟩ else .error (.error "number is not in safe range")
  else .error (.error "number is not in safe range")

/-- A confirmed transaction on the fund. One that reverts leaves nothing behind. -/
def State.transact (s : State) (r : Except Revert (World × List Log)) : Except Err Hash × State :=
  match r with
  | .error e => (.error (refusal e), s)
  | .ok (fund, logs) =>
    (.ok s.sent, { s with fund := fund, logs := s.logs ++ logs, sent := s.sent + 1 })

/-- A transaction on the fund with one argument of type `uint256`. -/
def State.transactWith (s : State) (n : ℤ) (f : Uint256 → Except Revert (World × List Log)) :
    Except Err Hash × State :=
  match encode n with
  | .error e => (.error e, s)
  | .ok amount => s.transact (f amount)

/-- The treasury approves the fund on a token. -/
def State.approve (env : Env) (s : State) (token : Address) (amount : Uint256) :
    Except Err Hash × State :=
  let (t, _, logs) := (s.token env token).approve env.signers.treasury env.fund amount
  if token = env.backing then
    s.transact (.ok ({ s.fund with asset := t }, logs.map .token))
  else (.ok s.sent, { s with others := Function.update s.others token t, sent := s.sent + 1 })

/-- What a statement does and answers. -/
def perform (env : Env) : (o : Stmt) → State → Except Err o.Result × State
  | .findEntity entityId, s =>
    (.ok (s.entities.find? fun e => e.id = entityId ∨ e.externalId = entityId), s)
  | .findReservations asset, s => (.ok (s.reserved asset), s)
  | .findActive asset, s => (.ok (s.active asset), s)
  | .findPosition id, s => (.ok (s.positions.find? fun p => p.id = id), s)
  | .recordPark row detail, s =>
    let id := s.positions.length
    let event := ⟨"TREASURY_PARKED", "system", none, ("positionId", .str (toString id)) :: detail⟩
    (.ok id, { s with positions := s.positions ++ [{ row with id := id }],
                      events := s.events ++ [event] })
  | .recordRecall id txHash detail, s =>
    if s.positions.any (·.id = id) then
      let mark := fun p : Position =>
        if p.id = id then { p with status := .recalled, txHashRecall := some txHash } else p
      (.ok (), { s with positions := s.positions.map mark,
                        events := s.events ++ [⟨"TREASURY_RECALLED", "system", none, detail⟩] })
    else (.error (.database "No record was found for an update"), s)
  | .audit record, s => (.ok (), { s with events := s.events ++ [record] })
  | .asset, s => (.ok env.backing, s)
  | .currentIndex, s => (.ok s.fund.storage.currentIndex.val, s)
  | .sharesOf, s => (.ok (s.fund.storage.sharesOf env.signers.treasury).val, s)
  | .balanceOf token, s => (.ok ((s.token env token).balanceOf env.signers.treasury).val, s)
  | .allowance token, s =>
    (.ok ((s.token env token).allowance env.signers.treasury env.fund).val, s)
  | .approve token amount, s =>
    match encode amount with
    | .error e => (.error e, s)
    | .ok amount => s.approve env token amount
  | .subscribe assetAmount, s => s.transactWith assetAmount fun amount => do
    let (fund, _, logs) ← Contracts.Fund.subscribe env.fund s.fund env.signers.operator
      env.signers.treasury amount
    return (fund, logs)
  | .redeem shares, s => s.transactWith shares fun shares => do
    let (fund, _, logs) ← Contracts.Fund.redeem env.fund s.fund env.signers.operator
      env.signers.treasury shares
    return (fund, logs)
  | .accrue newIndex, s => s.transactWith newIndex fun newIndex =>
    Contracts.Fund.accrue s.fund env.signers.operator newIndex

/-- How a statement goes. -/
inductive Choice where
  | done
  /-- it is not carried out -/
  | failed (e : Err)
  /-- it is carried out, and its caller is told otherwise -/
  | unconfirmed (e : Err)

/-- A statement, as it goes. -/
def exec (env : Env) (o : Stmt) (c : Choice) (s : State) : Except Err o.Result × State :=
  match c with
  | .done => perform env o s
  | .failed e => (.error e, s)
  | .unconfirmed e => (.error e, (perform env o s).2)

/-- What others do. -/
inductive Other where
  | reservations (rows : List Reserved)
  | entities (rows : List ParkingEntity)
  /-- a call on the fund's asset by an account other than the fund -/
  | asset (msgSender : Address) (request : MockERC20.Request)

/-- What others do to the state. -/
def interfere (env : Env) : Other → State → Option State
  | .reservations rows, s => some { s with reservations := rows }
  | .entities rows, s => some { s with entities := rows }
  | .asset msgSender request, s =>
    if msgSender = env.fund then none
    else match s.fund.asset.serve msgSender request with
      | .error _ => none
      | .ok (asset, logs) =>
        some { s with fund := { s.fund with asset := asset }, logs := s.logs ++ logs.map .token }

end SettlementOS.Model.Treasury
