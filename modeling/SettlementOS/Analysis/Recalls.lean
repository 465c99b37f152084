import SettlementOS.Analysis.Fund
import SettlementOS.Analysis.Treasury
import SettlementOS.Computation.Coverage
import SettlementOS.Program.Treasury

/-!
# A recall that nobody disturbs

By itself, and as long as the fund pays, recalling a position moves what its shares are worth from
the fund to the treasury. The loop of a recall for a payment then takes the shortest run of the
oldest positions that covers what it was asked for.
-/

set_option autoImplicit false

namespace SettlementOS.Analysis

open SettlementOS.Computation Model.Treasury Program.Treasury
open Model (AssetSymbol Err Hash)
open SettlementOS.Contracts (MockERC20)

variable {env : Env} {s : State} {α : Type} {symbol : AssetSymbol} {decimals : ℕ}

/-! ## Statements that succeed -/

/-- An operation with nobody else around, all of whose statements are carried out. -/
abbrev undisturbed (env : Env) (p : Operation α) (s : State) : Except Err α × State :=
  p.alone (perform env) s

/-- Alone, a statement is carried out. -/
theorem undisturbed_call (o : Stmt) : undisturbed env (call o) s = perform env o s := by
  show (Prog.ofExcept (perform env o s).1 : Operation o.Result).alone (perform env)
    (perform env o s).2 = perform env o s
  cases h : (perform env o s).1 with
  | ok a => exact Prod.ext h.symm rfl
  | error e => exact Prod.ext h.symm rfl

/-- An outcome is what it is. -/
theorem undisturbed_lift (x : Except Err α) : undisturbed env (lift x) s = (x, s) := by
  cases x <;> rfl

/-- The treasury's balance of the fund's asset. -/
def balanceOf (env : Env) (s : State) : ℕ :=
  (s.fund.asset.balanceOf env.signers.treasury).val

/-- The balance that is read is the treasury's. -/
theorem undisturbed_balanceOf :
    undisturbed env (call (.balanceOf env.backing)) s = (.ok (balanceOf env s), s) := by
  rw [undisturbed_call, perform, State.token, if_pos rfl]
  rfl

/-- The fund is deployed, backed by the asset, and not the treasury's own. -/
structure Deployed (env : Env) (symbol : AssetSymbol) (decimals : ℕ) : Prop where
  listed : env.listed = true
  token : env.tokens symbol = some ⟨env.backing, decimals⟩
  away : env.signers.treasury ≠ env.fund

variable (hd : Deployed env symbol decimals)
include hd

/-- The fund has an address. -/
theorem Deployed.mmfAddress : env.mmfAddress = some env.fund := by
  rw [Env.mmfAddress, if_pos hd.listed]

/-- The fund is found. -/
theorem Deployed.fundFor : fundFor env = .ok env.fund := by
  rw [Program.Treasury.fundFor, hd.mmfAddress]

/-- The asset's token is found. -/
theorem Deployed.tokenFor : tokenFor env symbol = .ok ⟨env.backing, decimals⟩ := by
  rw [Program.Treasury.tokenFor, hd.token]

/-- The asset, as the operations resolve it. -/
theorem Deployed.fundAssetFor {name : String} (hname : assetNamed name = some symbol) :
    undisturbed env (fundAssetFor env name) s = (.ok ⟨env.backing, symbol, decimals⟩, s) := by
  rw [Program.Treasury.fundAssetFor, undisturbed, Prog.bind_eq,
    Prog.alone_bind (undisturbed_lift _ |>.trans (by rw [hd.fundFor])), hname]
  show undisturbed env ((lift (Program.Treasury.tokenFor env symbol)).bind _) s = _
  rw [undisturbed, Prog.alone_bind (undisturbed_lift _ |>.trans (by rw [hd.tokenFor]))]
  show undisturbed env ((call .asset).bind _) s = _
  rw [undisturbed, Prog.alone_bind (undisturbed_call .asset)]
  exact if_neg (not_not.mpr rfl) ▸ rfl

/-- The free balance is the balance without the reservations. -/
theorem Deployed.freeTreasuryBalance {reserved : ℕ}
    (hreserved : reservedUnits (s.reserved symbol) decimals = .ok reserved) :
    undisturbed env (freeTreasuryBalance env symbol) s =
      (.ok ⟨balanceOf env s, reserved, balanceOf env s - reserved⟩, s) := by
  rw [Program.Treasury.freeTreasuryBalance, undisturbed, Prog.bind_eq,
    Prog.alone_bind (undisturbed_lift _ |>.trans (by rw [hd.tokenFor])), Prog.bind_eq]
  rw [Prog.alone_bind undisturbed_balanceOf, Prog.bind_eq,
    Prog.alone_bind (undisturbed_call (.findReservations symbol)), Prog.bind_eq,
    Prog.alone_bind (undisturbed_lift _ |>.trans (by rw [hreserved]))]
  rfl

omit hd

/-! ## Redemptions -/

/-- The fund pays what a position's shares are worth. -/
def Pays (env : Env) (w w' : Contracts.Fund.World) (position : Position) (paid : Uint256) : Prop :=
  ∃ shares logs, encode position.shares = .ok shares ∧
    Contracts.Fund.redeem env.fund w env.signers.operator env.signers.treasury shares =
      .ok (w', paid, logs)

/-- The fund pays for these positions one after the other. -/
def PaysAll (env : Env) : Contracts.Fund.World → List Position → Prop
  | _, [] => True
  | w, position :: positions =>
    ∃ w' paid, Pays env w w' position paid ∧ PaysAll env w' positions

/-- What a position is worth at the fund's index. -/
def valueAt (w : Contracts.Fund.World) (position : Position) : ℤ :=
  valueOfShares position.shares w.storage.currentIndex.val

/-- What is paid is what the position is worth, and the index stays. -/
theorem Pays.value {w w' : Contracts.Fund.World} {position : Position} {paid : Uint256}
    (h : Pays env w w' position paid) : (paid.val : ℤ) = valueAt w position ∧
      w'.storage.currentIndex = w.storage.currentIndex := by
  obtain ⟨shares, logs, hencode, hredeem⟩ := h
  obtain ⟨_, _, _, hpaid, _, _, _, _, _, rfl⟩ := redeem_ok hredeem
  have hshares := encode_ok hencode
  refine ⟨?_, rfl⟩
  rw [valueAt, valueOfShares, ← hshares, hpaid, ← Nat.cast_mul]
  exact (Int.ofNat_tdiv _ _).symm ▸ rfl

/-- The treasury gets what is paid. -/
theorem Pays.balance (haway : env.signers.treasury ≠ env.fund) {w w' : Contracts.Fund.World}
    {position : Position} {paid : Uint256} (h : Pays env w w' position paid) :
    (w'.asset.balanceOf env.signers.treasury).val =
      (w.asset.balanceOf env.signers.treasury).val + paid.val := by
  obtain ⟨shares, logs, _, hredeem⟩ := h
  obtain ⟨_, _, _, _, _, _, hmoved, _, _, rfl⟩ := redeem_ok hredeem
  have hbalance := hmoved env.signers.treasury
  rwa [if_neg haway, if_pos rfl, Nat.add_zero] at hbalance

/-- The transaction of a redemption that is paid: the rows are as before. -/
theorem Pays.perform {w' : Contracts.Fund.World} {position : Position} {paid : Uint256}
    (h : Pays env s.fund w' position paid) :
    ∃ s', perform env (.redeem position.shares) s = (.ok s.sent, s') ∧ s'.fund = w' ∧
      s'.positions = s.positions ∧ s'.reservations = s.reservations := by
  obtain ⟨shares, logs, hencode, hredeem⟩ := h
  refine ⟨{ s with fund := w', logs := s.logs ++ logs, sent := s.sent + 1 }, ?_, rfl, rfl, rfl⟩
  show s.transactWith _ _ = _
  rw [State.transactWith, hencode]
  show s.transact _ = _
  rw [hredeem]
  rfl

/-! ## One position -/

/-- The rows after a position was recalled. -/
def afterRecall (id : ℕ) (hash : Hash) (positions : List Position) : List Position :=
  positions.map fun p =>
    if p.id = id then { p with status := .recalled, txHashRecall := some hash } else p

/-- Only the recalled position's row changes. -/
theorem find_afterRecall {positions : List Position} {id other : ℕ} {hash : Hash}
    {position : Position} (hne : other ≠ id)
    (hfind : positions.find? (fun p => p.id = other) = some position) :
    (afterRecall id hash positions).find? (fun p => p.id = other) = some position := by
  induction positions with
  | nil => cases hfind
  | cons p positions ih =>
    by_cases hp : p.id = other
    · simp only [List.find?_cons, hp, decide_true, Option.some.injEq] at hfind
      subst hfind
      simp [afterRecall, hp, hne]
    · simp only [List.find?_cons, hp, decide_false] at hfind
      have hrest := ih hfind
      have hskip : (if p.id = id then { p with status := .recalled, txHashRecall := some hash }
          else p).id ≠ other := by
        split <;> exact hp
      simp only [afterRecall, List.map_cons, List.find?_cons, hskip, decide_false]
      exact hrest

/-- A stored position, found by its id. -/
def Stored (s : State) (position : Position) : Prop :=
  s.positions.find? (fun p => p.id = position.id) = some position

/-- An asset is found by its name. -/
theorem assetNamed_name (symbol : AssetSymbol) : assetNamed symbol.name = some symbol := by
  cases symbol <;> rfl

/-- Writing what was recalled. -/
theorem recordRecall_stored (asset : FundAsset) {position : Position} (amount : ℤ) (index : ℕ)
    (hash : Hash) (hstored : Stored s position) :
    ∃ s', undisturbed env (recordRecall env asset position amount index hash) s = (.ok (), s') ∧
      s'.fund = s.fund ∧ s'.reservations = s.reservations ∧
      s'.positions = afterRecall position.id hash s.positions := by
  have hany : s.positions.any (·.id = position.id) = true := by
    rw [List.any_eq_true]
    exact ⟨position, List.mem_of_find?_eq_some hstored, by simp⟩
  exact ⟨_, (undisturbed_call _).trans (if_pos hany), rfl, rfl, rfl⟩

/-- The redemption of a position that the fund pays for. -/
theorem redeemFor_paid (hd : Deployed env symbol decimals) {position : Position}
    {w' : Contracts.Fund.World} {paid : Uint256} (hstored : Stored s position)
    (hpays : Pays env s.fund w' position paid) :
    ∃ result s', undisturbed env (redeemFor env ⟨env.backing, symbol, decimals⟩ position) s =
        (.ok result, s') ∧
      result.positionId = position.id ∧ result.assetAmount = valueAt s.fund position ∧
      s'.fund = w' ∧ s'.reservations = s.reservations ∧
      ∃ hash, s'.positions = afterRecall position.id hash s.positions := by
  obtain ⟨s₁, hredeem, hfund, hrows, hreserved⟩ := hpays.perform
  have hwrite : undisturbed env (mmfOperatorWrite env (call (.redeem position.shares))) s =
      (.ok s.sent, s₁) := by
    rw [mmfOperatorWrite, hd.mmfAddress]
    exact (undisturbed_call _).trans hredeem
  have hgain : (balanceOf env s₁ : ℤ) - balanceOf env s = valueAt s.fund position := by
    rw [← hpays.value.1, balanceOf, hfund, hpays.balance hd.away, balanceOf]
    omega
  have hkept : Stored s₁ position := by
    rw [Stored, hrows]
    exact hstored
  have hrecord : ∃ s₂, undisturbed env (recordRecall env ⟨env.backing, symbol, decimals⟩ position
      (balanceOf env s₁ - balanceOf env s) s.fund.storage.currentIndex.val s.sent) s₁ =
        (.ok (), s₂) ∧ s₂.fund = s₁.fund ∧ s₂.reservations = s₁.reservations ∧
        s₂.positions = afterRecall position.id s.sent s₁.positions :=
    recordRecall_stored _ _ _ _ hkept
  obtain ⟨s₂, hdone, hfund₂, hreserved₂, hrows₂⟩ := hrecord
  refine ⟨⟨position.id, position.shares, balanceOf env s₁ - balanceOf env s,
    s.fund.storage.currentIndex.val, s.sent⟩, s₂, ?_, rfl, hgain, hfund₂.trans hfund,
    hreserved₂.trans hreserved, s.sent, hrows ▸ hrows₂⟩
  rw [redeemFor, undisturbed, Prog.bind_eq, Prog.alone_bind (undisturbed_call .currentIndex),
    Prog.bind_eq, Prog.alone_bind undisturbed_balanceOf, Prog.bind_eq, Prog.alone_bind hwrite,
    Prog.bind_eq, Prog.alone_bind undisturbed_balanceOf, Prog.bind_eq, Prog.alone_bind hdone]
  rfl

/-- Recalling a position that the fund pays for. -/
theorem recallPosition_paid (hd : Deployed env symbol decimals) {position : Position}
    {w' : Contracts.Fund.World} {paid : Uint256} (hstored : Stored s position)
    (hactive : position.status = .active) (hasset : position.asset = symbol)
    (hpays : Pays env s.fund w' position paid) :
    ∃ result s', undisturbed env (recallPosition env position.id) s = (.ok result, s') ∧
      result.positionId = position.id ∧ result.assetAmount = valueAt s.fund position ∧
      s'.fund = w' ∧ s'.reservations = s.reservations ∧
      ∃ hash, s'.positions = afterRecall position.id hash s.positions := by
  obtain ⟨result, s', hrun, hrest⟩ := redeemFor_paid hd hstored hpays
  refine ⟨result, s', ?_, hrest⟩
  have hfind : undisturbed env (call (.findPosition position.id)) s = (.ok (some position), s) := by
    rw [undisturbed_call, perform, hstored]
  rw [recallPosition, undisturbed, Prog.bind_eq, Prog.alone_bind hfind]
  show undisturbed env (if position.status ≠ .active then _ else _) s = _
  rw [if_neg (not_not.mpr hactive)]
  show undisturbed env ((fundAssetFor env position.asset.name).bind _) s = _
  rw [undisturbed, Prog.alone_bind (hd.fundAssetFor (hasset ▸ assetNamed_name _))]
  exact hrun

/-! ## The loop -/

/-- What a position is worth depends on the index alone. -/
theorem valueAt_congr {w w' : Contracts.Fund.World}
    (h : w'.storage.currentIndex = w.storage.currentIndex) : valueAt w' = valueAt w := by
  funext position
  rw [valueAt, valueAt, h]

/-- What the loop finds after a position that was paid for: the others as they were stored, their
worth, and as much more as the position was worth. -/
structure Recalled (env : Env) (position : Position) (positions : List Position) (s s' : State) :
    Prop where
  stored : ∀ p ∈ positions, Stored s' p
  value : valueAt s'.fund = valueAt s.fund
  reservations : s'.reservations = s.reservations
  balance : (balanceOf env s' : ℤ) = balanceOf env s + valueAt s.fund position

/-- One position of the loop. -/
theorem recallPosition_step (hd : Deployed env symbol decimals) {position : Position}
    {positions : List Position} {w' : Contracts.Fund.World} {paid : Uint256}
    (hstored : ∀ p ∈ position :: positions, Stored s p)
    (hactive : position.status = .active) (hasset : position.asset = symbol)
    (hdistinct : ((position :: positions).map Position.id).Nodup)
    (hpays : Pays env s.fund w' position paid) :
    ∃ result s', undisturbed env (recallPosition env position.id) s = (.ok result, s') ∧
      result.positionId = position.id ∧ result.assetAmount = valueAt s.fund position ∧
      s'.fund = w' ∧ Recalled env position positions s s' := by
  obtain ⟨result, s', hrun, hid, hamount, hfund, hreserved, hash, hrows⟩ :=
    recallPosition_paid hd (hstored position List.mem_cons_self) hactive hasset hpays
  rw [List.map_cons, List.nodup_cons] at hdistinct
  refine ⟨result, s', hrun, hid, hamount, hfund, fun p hp => ?_,
    valueAt_congr (hfund ▸ hpays.value.2), hreserved, ?_⟩
  · rw [Stored, hrows]
    refine find_afterRecall (fun heq => hdistinct.1 ?_) (hstored p (List.mem_cons_of_mem _ hp))
    exact heq ▸ List.mem_map_of_mem hp
  · rw [← hpays.value.1, balanceOf, hfund, hpays.balance hd.away, balanceOf]
    omega

/-- The loop recalls the positions that cover what is left of the shortfall, when the fund pays for
these. -/
theorem recallUntil_paid (hd : Deployed env symbol decimals) (shortfall : ℤ)
    {positions : List Position} {s : State} (hstored : ∀ p ∈ positions, Stored s p)
    (hactive : ∀ p ∈ positions, p.status = .active ∧ p.asset = symbol)
    (hdistinct : (positions.map Position.id).Nodup) (recalled : List RecallResult) (freed : ℤ)
    (hpays : PaysAll env s.fund
      (coveringPrefix (valueAt s.fund) (shortfall - freed) positions)) :
    ∃ result s', undisturbed env (recallUntil env shortfall positions recalled freed) s =
        (.ok result, s') ∧
      result.recalled.map RecallResult.positionId = recalled.map RecallResult.positionId ++
        (coveringPrefix (valueAt s.fund) (shortfall - freed) positions).map Position.id ∧
      result.assetAmount =
        freed + worthAll (valueAt s.fund) (coveringPrefix (valueAt s.fund) (shortfall - freed)
          positions) ∧
      s'.reservations = s.reservations ∧
      (balanceOf env s' : ℤ) = balanceOf env s + worthAll (valueAt s.fund)
        (coveringPrefix (valueAt s.fund) (shortfall - freed) positions) := by
  induction positions generalizing s recalled freed with
  | nil => exact ⟨⟨recalled, freed⟩, s, rfl, by simp [coveringPrefix], by simp [coveringPrefix],
      rfl, by simp [coveringPrefix]⟩
  | cons position positions ih =>
    by_cases hcovered : shortfall ≤ freed
    · have hnone :
          coveringPrefix (valueAt s.fund) (shortfall - freed) (position :: positions) = [] :=
        coveringPrefix_of_covered (by omega) _
      refine ⟨⟨recalled, freed⟩, s, ?_, by simp [hnone], by simp [hnone], rfl, by simp [hnone]⟩
      rw [recallUntil, if_pos hcovered]
      rfl
    · have htaken : coveringPrefix (valueAt s.fund) (shortfall - freed) (position :: positions) =
          position :: coveringPrefix (valueAt s.fund) (shortfall - freed - valueAt s.fund position)
            positions := coveringPrefix_cons (by omega) _ _
      rw [htaken] at hpays
      obtain ⟨w', paid, hfirst, hrest⟩ := hpays
      obtain ⟨hpositive, hasset⟩ := hactive position List.mem_cons_self
      obtain ⟨result, s₁, hrun, hid, hamount, hfund, hstep⟩ :=
        recallPosition_step hd hstored hpositive hasset hdistinct hfirst
      have hleft : shortfall - (freed + result.assetAmount) =
          shortfall - freed - valueAt s.fund position := by
        rw [hamount]
        omega
      -- the index is as it was, so the fund pays for the others that are taken
      have hpaysRest : PaysAll env s₁.fund (coveringPrefix (valueAt s₁.fund)
          (shortfall - (freed + result.assetAmount)) positions) := by
        rw [hstep.value, hleft, hfund]
        exact hrest
      obtain ⟨result', s₂, hrun', hids, hamount', hreserved', hbalance⟩ :=
        ih hstep.stored (fun p hp => hactive p (List.mem_cons_of_mem _ hp))
          (List.nodup_cons.mp hdistinct).2 (recalled ++ [result]) (freed + result.assetAmount)
          hpaysRest
      rw [hstep.value, hleft] at hids hamount' hbalance
      refine ⟨result', s₂, ?_, ?_, ?_, hreserved'.trans hstep.reservations, ?_⟩
      · rw [recallUntil, if_neg hcovered, undisturbed, Prog.bind_eq, Prog.alone_bind hrun]
        exact hrun'
      · rw [hids, htaken, List.map_append, List.map_cons, List.append_assoc]
        simp [hid]
      · rw [hamount', htaken, worthAll_cons, hamount]
        omega
      · rw [hbalance, hstep.balance, htaken, worthAll_cons]
        omega

/-! ## A recall for a payment -/

/-- What the active positions are worth. -/
theorem parkedBalance_undisturbed (hd : Deployed env symbol decimals) :
    undisturbed env (parkedBalance env symbol) s =
      (.ok (worthAll (valueAt s.fund) (s.active symbol)), s) := by
  rw [parkedBalance, hd.mmfAddress]
  show undisturbed env ((call (.findActive symbol)).bind _) s = _
  rw [undisturbed, Prog.alone_bind (undisturbed_call (.findActive symbol))]
  show undisturbed env (if (s.active symbol).isEmpty = true then _ else _) s = _
  split
  · rename_i hempty
    rw [List.isEmpty_iff.mp hempty]
    rfl
  · have hindex : undisturbed env (currentIndexOf env) s =
        (.ok s.fund.storage.currentIndex.val, s) := by
      rw [currentIndexOf, undisturbed, Prog.bind_eq,
        Prog.alone_bind (undisturbed_lift _ |>.trans (by rw [hd.fundFor]))]
      exact undisturbed_call .currentIndex
    rw [undisturbed, Prog.bind_eq, Prog.alone_bind hindex]
    rfl

/-- A row is found by its id where ids are distinct. -/
theorem find_of_mem {positions : List Position} (hdistinct : (positions.map Position.id).Nodup)
    {position : Position} (hmem : position ∈ positions) :
    positions.find? (fun p => p.id = position.id) = some position := by
  induction positions with
  | nil => cases hmem
  | cons p positions ih =>
    rw [List.map_cons, List.nodup_cons] at hdistinct
    rcases List.mem_cons.mp hmem with rfl | hmem
    · simp
    · have hne : p.id ≠ position.id := fun heq => hdistinct.1 (heq ▸ List.mem_map_of_mem hmem)
      rw [List.find?_cons_of_neg (by simp [hne])]
      exact ih hdistinct.2 hmem

/-- A recall for a payment that can be made: the asset is the fund's, the amounts can be read, ids
are distinct, and where the active positions cover what is taken for the shortfall, the fund pays
for those that are redeemed. -/
structure Recallable (env : Env) (s : State) (symbol : AssetSymbol) (decimals : ℕ)
    (args : RecallForPaymentArgs) (needed reserved : ℕ) : Prop where
  deployed : Deployed env symbol decimals
  asset : assetNamed args.asset = some symbol
  amount : parsePositiveAssetUnits args.amount decimals = .ok needed
  reservations : reservedUnits (s.reserved symbol) decimals = .ok reserved
  distinct : (s.positions.map Position.id).Nodup
  pays : (needed : ℤ) - (balanceOf env s - reserved : ℕ) ≤
      worthAll (valueAt s.fund) (s.active symbol) →
    PaysAll env s.fund (coveringPrefix (valueAt s.fund)
      (needed - (balanceOf env s - reserved : ℕ)) (s.active symbol))

variable {args : RecallForPaymentArgs} {needed reserved : ℕ}

/-- The checks of a recall for a payment. -/
theorem Recallable.checks (h : Recallable env s symbol decimals args needed reserved) :
    undisturbed env (recallForPayment env args) s =
      if needed ≤ balanceOf env s - reserved then (.ok ⟨[], 0⟩, s)
      else undisturbed env (recallShortfall env ⟨env.backing, symbol, decimals⟩ args needed
        (balanceOf env s - reserved)) s := by
  rw [recallForPayment, undisturbed, Prog.bind_eq,
    Prog.alone_bind (h.deployed.fundAssetFor h.asset),
    Prog.bind_eq, Prog.alone_bind (undisturbed_lift _ |>.trans (by rw [h.amount])), Prog.bind_eq,
    Prog.alone_bind (h.deployed.freeTreasuryBalance h.reservations)]
  split <;> rfl

/-- What is not parked is not recalled. -/
theorem Recallable.refused (h : Recallable env s symbol decimals args needed reserved) {free : ℕ}
    (hshort : worthAll (valueAt s.fund) (s.active symbol) < (needed : ℤ) - free) :
    ∃ e, undisturbed env (recallShortfall env ⟨env.backing, symbol, decimals⟩ args needed free) s =
      (.error e, s) := by
  rw [recallShortfall, undisturbed, Prog.bind_eq,
    Prog.alone_bind (parkedBalance_undisturbed h.deployed)]
  dsimp only
  rw [if_pos hshort]
  exact ⟨_, rfl⟩

/-- What is parked is recalled, the oldest positions first. -/
theorem Recallable.recalled (h : Recallable env s symbol decimals args needed reserved) {free : ℕ}
    (hfree : free = balanceOf env s - reserved)
    (hparked : (needed : ℤ) - free ≤ worthAll (valueAt s.fund) (s.active symbol)) :
    ∃ result s', undisturbed env (recallShortfall env ⟨env.backing, symbol, decimals⟩ args needed
        free) s = (.ok result, s') ∧
      result.recalled.map RecallResult.positionId =
        (coveringPrefix (valueAt s.fund) (needed - free) (s.active symbol)).map Position.id ∧
      s'.reservations = s.reservations ∧
      (balanceOf env s' : ℤ) = balanceOf env s +
        worthAll (valueAt s.fund) (coveringPrefix (valueAt s.fund) (needed - free)
          (s.active symbol)) := by
  have hmem : ∀ p ∈ s.active symbol, p ∈ s.positions ∧ p.asset = symbol ∧ p.status = .active := by
    intro p hp
    obtain ⟨hmem, hp⟩ := List.mem_filter.mp hp
    exact ⟨hmem, of_decide_eq_true hp⟩
  have hdistinct : ((s.active symbol).map Position.id).Nodup :=
    h.distinct.sublist (List.filter_sublist.map _)
  have hpays : PaysAll env s.fund (coveringPrefix (valueAt s.fund) (needed - free - 0)
      (s.active symbol)) := by
    rw [Int.sub_zero, hfree]
    exact h.pays (hfree ▸ hparked)
  obtain ⟨result, s₁, hrun, hids, hamount, hreserved, hbalance⟩ :=
    recallUntil_paid h.deployed (needed - free) (fun p hp => find_of_mem h.distinct (hmem p hp).1)
      (fun p hp => ⟨(hmem p hp).2.2, (hmem p hp).2.1⟩) hdistinct [] 0 hpays
  rw [Int.sub_zero] at hids hamount hbalance
  have henough : ¬ result.assetAmount < (needed : ℤ) - free := by
    have hcover := le_worthAll_coveringPrefix hparked
    omega
  have haudit : ∃ s₂, undisturbed env (auditRecalled env ⟨env.backing, symbol, decimals⟩ args
      needed free (needed - free) result) s₁ = (.ok (), s₂) ∧ s₂.fund = s₁.fund ∧
      s₂.reservations = s₁.reservations := ⟨_, undisturbed_call _, rfl, rfl⟩
  obtain ⟨s₂, hdone, hfund, hreserved₂⟩ := haudit
  refine ⟨result, s₂, ?_, hids, hreserved₂.trans hreserved, ?_⟩
  · rw [recallShortfall, undisturbed, Prog.bind_eq,
      Prog.alone_bind (parkedBalance_undisturbed h.deployed)]
    dsimp only
    rw [if_neg (not_lt.mpr hparked), Prog.bind_eq,
      Prog.alone_bind (undisturbed_call (.findActive symbol)), Prog.bind_eq, Prog.alone_bind hrun,
      if_neg henough, Prog.bind_eq, Prog.alone_bind hdone]
    rfl
  · rw [balanceOf, hfund]
    exact hbalance

end SettlementOS.Analysis
