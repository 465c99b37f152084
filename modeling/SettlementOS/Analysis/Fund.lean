import SettlementOS.Contracts.TokenizedMMF
import SettlementOS.Analysis.Tokens

/-!
# The fund's shares and its buffer

The two roundings of the fund are one fact each about floors: shares bought round down
so what is owed grows by at most what was paid in, and what several redemptions pay adds
up to at most what was owed. `buffer` is what the fund holds beyond what it owes, as a
signed number; only an accrual can lower it.
-/

set_option autoImplicit false

namespace SettlementOS.Analysis

open SettlementOS.Computation SettlementOS.Contracts SettlementOS.Contracts.Fund

/-! ## Floors -/

/-- Buying shares at an index adds at most the price paid to what all shares are worth. -/
theorem worth_add_le (total paid index scale : ℕ) (hscale : 0 < scale) :
    (total + paid * scale / index) * index / scale ≤ total * index / scale + paid := by
  have hrounded : paid * scale / index * index ≤ paid * scale := Nat.div_mul_le_self _ _
  calc (total + paid * scale / index) * index / scale
      = (total * index + paid * scale / index * index) / scale := by rw [Nat.add_mul]
    _ ≤ (total * index + paid * scale) / scale :=
        Nat.div_le_div_right (Nat.add_le_add_left hrounded _)
    _ = total * index / scale + paid := Nat.add_mul_div_right _ _ hscale

/-- Shares redeemed and shares kept are together worth at most all of them. -/
theorem worth_split_le (kept redeemed index scale : ℕ) :
    kept * index / scale + redeemed * index / scale ≤ (kept + redeemed) * index / scale := by
  rw [Nat.add_mul]
  exact Nat.div_add_div_le_add_div

/-- The shares bought are never worth more than what was paid. -/
theorem roundTrip_le (paid index scale : ℕ) (hscale : 0 < scale) :
    paid * scale / index * index / scale ≤ paid := by
  have hadd := worth_add_le 0 paid index scale hscale
  simpa using hadd

/-- They are worth at least what was paid but one, if and only if what is left over of the price
buys no more than a unit. -/
theorem roundTrip_near_iff (paid index scale : ℕ) (hscale : 0 < scale) (hpaid : 0 < paid) :
    paid - 1 ≤ paid * scale / index * index / scale ↔ paid * scale % index ≤ scale := by
  have hparts := Nat.div_add_mod' (paid * scale) index
  have hone : scale ≤ paid * scale := Nat.le_mul_of_pos_left scale hpaid
  rw [Nat.le_div_iff_mul_le hscale, Nat.sub_mul, Nat.one_mul]
  omega

/-! ## What every history keeps -/

/-- What all shares are worth. -/
def liability (w : World) : ℕ :=
  w.storage.totalShares.val * w.storage.currentIndex.val / INDEX_SCALE.val

/-- What the fund holds beyond what all shares are worth. -/
def buffer (contract : Address) (w : World) : ℤ :=
  ((w.asset.balanceOf contract).val : ℤ) - (liability w : ℤ)

/-- The asset is sound, and the total is what all accounts' shares add up to. -/
structure Backed (contract : Address) (w : World) : Prop where
  sound : Sound contract w.asset
  shares : ∑ a, (w.storage.sharesOf a).val = w.storage.totalShares.val

/-- What an account has changes nothing of the total. -/
@[simp] theorem setShares_totalShares (w : World) (account : Address) (v : Uint256) :
    (w.setShares account v).storage.totalShares = w.storage.totalShares := rfl

/-- Nor does it change the asset. -/
@[simp] theorem setShares_asset (w : World) (account : Address) (v : Uint256) :
    (w.setShares account v).asset = w.asset := rfl

/-- Nor does the total. -/
@[simp] theorem setTotal_asset (w : World) (v : Uint256) : (w.setTotal v).asset = w.asset := rfl

/-- The shares of all accounts change by what one of them has. -/
theorem sum_setShares (w : World) (account : Address) (v : Uint256) :
    ∑ a, ((w.setShares account v).storage.sharesOf a).val + (w.storage.sharesOf account).val =
      ∑ a, (w.storage.sharesOf a).val + v.val :=
  sum_update w.storage.sharesOf (fun _ v => v.val) account v

/-! ## What calls do -/

variable {contract : Address}

/-- `subscribe` when it does not revert. -/
theorem subscribe_ok {w w' : World} {msgSender onBehalfOf : Address} {amount shares : Uint256}
    {logs : List Log}
    (h : subscribe contract w msgSender onBehalfOf amount = .ok (w', shares, logs)) :
    ∃ owned total asset, shares.val = amount.val * INDEX_SCALE.val / w.storage.currentIndex.val ∧
      0 < amount.val ∧ 0 < shares.val ∧
      owned.val = (w.storage.sharesOf onBehalfOf).val + shares.val ∧
      total.val = w.storage.totalShares.val + shares.val ∧
      amount ≤ w.asset.allowance onBehalfOf contract ∧
      Transferred w.asset asset onBehalfOf contract amount ∧
      asset.totalSupply = w.asset.totalSupply ∧
      (∀ a s, asset.allowance a s ≤ w.asset.allowance a s) ∧
      w' = { (w.setShares onBehalfOf owned).setTotal total with asset := asset } := by
  unfold subscribe onlyOperator at h
  simp only [bind_eq_ok, require_eq_ok, Uint256.mul_eq_ok, Uint256.div_eq_ok, Uint256.add_eq_ok]
    at h
  obtain ⟨_, _, _, _, _, hpaid, scaled, hscaled, _, ⟨_, hshares⟩, _, hpos, owned, howned, total,
    htotal, ⟨asset, _, _⟩, htransfer, _, _, heq⟩ := h
  cases heq
  rw [hscaled] at hshares
  obtain ⟨hallowed, _, hmoved, hsupply, hlower, _, _⟩ := transferFrom_ok htransfer
  exact ⟨owned, total, asset, hshares, hpaid, hpos, howned, htotal, hallowed, hmoved, hsupply,
    hlower, rfl⟩

/-- `redeem` when it does not revert. -/
theorem redeem_ok {w w' : World} {msgSender onBehalfOf : Address} {amount shares : Uint256}
    {logs : List Log}
    (h : redeem contract w msgSender onBehalfOf shares = .ok (w', amount, logs)) :
    ∃ owned total asset, amount.val = shares.val * w.storage.currentIndex.val / INDEX_SCALE.val ∧
      owned.val + shares.val = (w.storage.sharesOf onBehalfOf).val ∧
      total.val + shares.val = w.storage.totalShares.val ∧
      Transferred w.asset asset contract onBehalfOf amount ∧
      asset.totalSupply = w.asset.totalSupply ∧ asset.allowance = w.asset.allowance ∧
      w' = { (w.setShares onBehalfOf owned).setTotal total with asset := asset } := by
  unfold redeem onlyOperator at h
  simp only [bind_eq_ok, require_eq_ok, Uint256.mul_eq_ok, Uint256.div_eq_ok, Uint256.sub_eq_ok]
    at h
  obtain ⟨_, _, _, _, _, _, scaled, hscaled, _, ⟨_, hamount⟩, owned, howned, total, htotal,
    ⟨asset, _, _⟩, htransfer, _, _, heq⟩ := h
  cases heq
  rw [hscaled] at hamount
  obtain ⟨_, hmoved, hsupply, hallowance, _, _⟩ := _transfer_ok htransfer
  exact ⟨owned, total, asset, hamount, howned, htotal, hmoved, hsupply, hallowance, rfl⟩

/-! ## The calls keep the shares backed -/

/-- A subscription keeps the fund backed, and does not lower its buffer. -/
theorem Backed.subscribe {w w' : World} (hw : Backed contract w) {msgSender onBehalfOf : Address}
    {amount shares : Uint256} {logs : List Log}
    (h : Fund.subscribe contract w msgSender onBehalfOf amount = .ok (w', shares, logs)) :
    Backed contract w' ∧ buffer contract w ≤ buffer contract w' := by
  obtain ⟨owned, total, asset, hshares, hpaid, _, howned, htotal, hallowed, hmoved, hsupply, hlower,
    rfl⟩ := subscribe_ok h
  have hsum := sum_setShares w onBehalfOf owned
  have hold := hw.shares
  refine ⟨⟨hw.sound.transferred hmoved hsupply hlower, ?_⟩, ?_⟩
  · show ∑ a, ((w.setShares onBehalfOf owned).storage.sharesOf a).val = total.val
    omega
  · have hother : onBehalfOf ≠ contract := by
      intro heq
      rw [heq, hw.sound.allowance contract] at hallowed
      have hle : amount.val ≤ 0 := hallowed
      omega
    have hbalance := hmoved contract
    rw [if_neg hother.symm, if_pos rfl] at hbalance
    have hworth := worth_add_le w.storage.totalShares.val amount.val w.storage.currentIndex.val
      INDEX_SCALE.val (by decide)
    rw [← hshares, ← htotal] at hworth
    show ((w.asset.balanceOf contract).val : ℤ) -
        ((w.storage.totalShares.val * w.storage.currentIndex.val / INDEX_SCALE.val : ℕ) : ℤ) ≤
      ((asset.balanceOf contract).val : ℤ) -
        ((total.val * w.storage.currentIndex.val / INDEX_SCALE.val : ℕ) : ℤ)
    omega

/-- So does a redemption. -/
theorem Backed.redeem {w w' : World} (hw : Backed contract w) {msgSender onBehalfOf : Address}
    {amount shares : Uint256} {logs : List Log}
    (h : Fund.redeem contract w msgSender onBehalfOf shares = .ok (w', amount, logs)) :
    Backed contract w' ∧ buffer contract w ≤ buffer contract w' := by
  obtain ⟨owned, total, asset, hamount, howned, htotal, hmoved, hsupply, hallowance, rfl⟩ :=
    redeem_ok h
  have hsum := sum_setShares w onBehalfOf owned
  have hold := hw.shares
  refine ⟨⟨hw.sound.transferred hmoved hsupply fun _ _ => hallowance ▸ le_refl _, ?_⟩, ?_⟩
  · show ∑ a, ((w.setShares onBehalfOf owned).storage.sharesOf a).val = total.val
    omega
  · have hbalance := hmoved contract
    rw [if_pos rfl] at hbalance
    have hworth := worth_split_le total.val shares.val w.storage.currentIndex.val INDEX_SCALE.val
    rw [← hamount, htotal] at hworth
    show ((w.asset.balanceOf contract).val : ℤ) -
        ((w.storage.totalShares.val * w.storage.currentIndex.val / INDEX_SCALE.val : ℕ) : ℤ) ≤
      ((asset.balanceOf contract).val : ℤ) -
        ((total.val * w.storage.currentIndex.val / INDEX_SCALE.val : ℕ) : ℤ)
    omega

/-- What another account asks of the asset. -/
theorem Backed.asset {w : World} (hw : Backed contract w) {msgSender : Address}
    (hother : msgSender ≠ contract) {request : MockERC20.Request} {asset : MockERC20}
    {logs : List TokenEvent} (h : w.asset.serve msgSender request = .ok (asset, logs)) :
    Backed contract { w with asset := asset } ∧
      buffer contract w ≤ buffer contract { w with asset := asset } := by
  obtain ⟨hsound, hle⟩ := serve_ok hw.sound hother h
  refine ⟨⟨hsound, hw.shares⟩, ?_⟩
  have hle : (w.asset.balanceOf contract).val ≤ (asset.balanceOf contract).val := hle
  show ((w.asset.balanceOf contract).val : ℤ) - (liability w : ℤ) ≤
    ((asset.balanceOf contract).val : ℤ) - (liability w : ℤ)
  omega

/-- The requests that advance the index. -/
def Accrues : Request → Prop
  | .accrue _ => True
  | _ => False

/-- Every executed call keeps the shares backed and does not lower the index; all but an
accrual do not lower the buffer either. -/
theorem Backed.exec {w w' : World} (hw : Backed contract w) {c : Call contract} {logs : List Log}
    (h : Fund.exec contract w c = .ok (w', logs)) :
    Backed contract w' ∧ w.storage.currentIndex ≤ w'.storage.currentIndex ∧
      (¬ Accrues c.request → buffer contract w ≤ buffer contract w') := by
  obtain ⟨msgSender, request⟩ := c
  cases request with
  | setOperator operator enabled =>
    simp only [Fund.exec, setOperator, bind_eq_ok] at h
    obtain ⟨_, _, heq⟩ := h
    cases heq
    exact ⟨⟨hw.sound, hw.shares⟩, le_refl _, fun _ => le_refl _⟩
  | subscribe onBehalfOf amount =>
    simp only [Fund.exec, bind_eq_ok] at h
    obtain ⟨⟨_, shares, _⟩, hsub, heq⟩ := h
    cases heq
    obtain ⟨hbacked, hbuffer⟩ := hw.subscribe hsub
    obtain ⟨_, _, _, _, _, _, _, _, _, _, _, _, rfl⟩ := subscribe_ok hsub
    exact ⟨hbacked, le_refl _, fun _ => hbuffer⟩
  | redeem onBehalfOf shares =>
    simp only [Fund.exec, bind_eq_ok] at h
    obtain ⟨⟨_, amount, _⟩, hred, heq⟩ := h
    cases heq
    obtain ⟨hbacked, hbuffer⟩ := hw.redeem hred
    obtain ⟨_, _, _, _, _, _, _, _, _, rfl⟩ := redeem_ok hred
    exact ⟨hbacked, le_refl _, fun _ => hbuffer⟩
  | accrue newIndex =>
    simp only [Fund.exec, Fund.accrue, bind_eq_ok, require_eq_ok] at h
    obtain ⟨_, _, _, hle, heq⟩ := h
    cases heq
    exact ⟨⟨hw.sound, hw.shares⟩, hle, fun hno => absurd trivial hno⟩
  | asset request =>
    simp only [Fund.exec, bind_eq_ok] at h
    obtain ⟨⟨_, _⟩, hserve, heq⟩ := h
    cases heq
    obtain ⟨hbacked, hbuffer⟩ := hw.asset msgSender.property hserve
    exact ⟨hbacked, le_refl _, fun _ => hbuffer⟩

/-- The fund is backed when it is deployed. -/
theorem backed_deployed (contract deployer : Address) : Backed contract (deployed deployer) where
  sound := sound_deployed contract
  shares := by
    show ∑ _ : Address, 0 = 0
    exact Finset.sum_const_zero

/-- Every history keeps the shares backed. -/
theorem backed_history (contract deployer : Address) (calls : List (Call contract)) :
    Backed contract (history contract deployer calls).world := by
  apply Ledger.run_induct (P := fun s : Ledger (machine contract) => Backed contract s.world)
  · exact backed_deployed contract deployer
  · intro t c w logs hs h
    exact (Backed.exec hs h).1
  · intro t c hs
    exact hs

/-! ## One call and many -/

/-- One included call, reverted or not. -/
theorem Backed.transact {s : Ledger (machine contract)} (hs : Backed contract s.world)
    (c : Call contract) :
    Backed contract (s.transact c).world ∧
      s.world.storage.currentIndex ≤ (s.transact c).world.storage.currentIndex ∧
      (¬ Accrues c.request → buffer contract s.world ≤ buffer contract (s.transact c).world) := by
  unfold Ledger.transact
  split
  next w logs heq => exact hs.exec heq
  next => exact ⟨hs, le_refl _, fun _ => le_refl _⟩

/-- Any further calls. -/
theorem Backed.run {s : Ledger (machine contract)} (hs : Backed contract s.world)
    (calls : List (Call contract)) :
    Backed contract (s.run calls).world ∧
      s.world.storage.currentIndex ≤ (s.run calls).world.storage.currentIndex ∧
      ((∀ c ∈ calls, ¬ Accrues c.request) →
        buffer contract s.world ≤ buffer contract (s.run calls).world) := by
  induction calls generalizing s with
  | nil => exact ⟨hs, le_refl _, fun _ => le_refl _⟩
  | cons c calls ih =>
    obtain ⟨hbacked, hindex, hbuffer⟩ := hs.transact c
    obtain ⟨hbacked', hindex', hbuffer'⟩ := ih hbacked
    refine ⟨hbacked', le_trans hindex hindex', ?_⟩
    intro hno
    exact le_trans (hbuffer (hno c (List.mem_cons_self ..)))
      (hbuffer' fun d hd => hno d (List.mem_cons_of_mem _ hd))

/-! ## Redemptions -/

/-- Where the buffer is not negative, a redemption of shares somebody owns is paid: it can
only revert when its caller is no operator or its arithmetic leaves the word. -/
theorem Backed.redeem_succeeds {w : World} (hw : Backed contract w)
    (hbuffer : 0 ≤ buffer contract w) {msgSender onBehalfOf : Address} {shares : Uint256}
    (hop : w.storage.operators msgSender = true) (hpos : 0 < shares.val)
    (howns : shares ≤ w.storage.sharesOf onBehalfOf)
    (hword : shares.val * w.storage.currentIndex.val < 2 ^ 256) :
    ∃ r, Fund.redeem contract w msgSender onBehalfOf shares = .ok r := by
  have hless : shares.val ≤ (w.storage.sharesOf onBehalfOf).val := howns
  have hmine := le_sum_entry (fun a => (w.storage.sharesOf a).val) onBehalfOf
  have htotal := hw.shares
  obtain ⟨scaled, hscaled⟩ : ∃ v : Uint256, v.val = shares.val * w.storage.currentIndex.val :=
    ⟨⟨_, hword⟩, rfl⟩
  obtain ⟨amount, hamount⟩ : ∃ v : Uint256, v.val = scaled.val / INDEX_SCALE.val :=
    ⟨⟨_, Nat.lt_of_le_of_lt (Nat.div_le_self _ _) scaled.isLt⟩, rfl⟩
  obtain ⟨owned, howned⟩ : ∃ v : Uint256, v.val + shares.val =
      (w.storage.sharesOf onBehalfOf).val :=
    ⟨⟨(w.storage.sharesOf onBehalfOf).val - shares.val, by omega⟩, Nat.sub_add_cancel hless⟩
  obtain ⟨total, htotal'⟩ : ∃ v : Uint256, v.val + shares.val = w.storage.totalShares.val :=
    ⟨⟨w.storage.totalShares.val - shares.val, by omega⟩, Nat.sub_add_cancel (by omega)⟩
  -- what is paid is part of what is owed, and that is held
  have hsplit := worth_split_le total.val shares.val w.storage.currentIndex.val INDEX_SCALE.val
  rw [htotal'] at hsplit
  have hpart : amount.val ≤ liability w := by
    rw [hamount, hscaled]
    exact le_trans (Nat.le_add_left _ _) hsplit
  have hcover : amount ≤ w.asset.balanceOf contract := by
    show amount.val ≤ (w.asset.balanceOf contract).val
    unfold buffer at hbuffer
    omega
  obtain ⟨asset, htransfer⟩ := _transfer_succeeds hw.sound onBehalfOf hcover
  unfold Fund.redeem onlyOperator MockERC20.transfer
  rw [require_then hop, require_then hpos, require_then howns, Uint256.mul_eq_ok.mpr hscaled,
    ok_bind, Uint256.div_eq_ok.mpr ⟨by decide, hamount⟩, ok_bind, Uint256.sub_eq_ok.mpr howned]
  simp only [ok_bind, setShares_totalShares, setTotal_asset, setShares_asset,
    Uint256.sub_eq_ok.mpr htotal', htransfer]
  exact ⟨_, rfl⟩

/-- Where the buffer is not negative, no redemption reverts for lack of the asset. -/
theorem Backed.redeem_not_short {w : World} (hw : Backed contract w)
    (hbuffer : 0 ≤ buffer contract w) (msgSender onBehalfOf : Address) (shares : Uint256) :
    Fund.redeem contract w msgSender onBehalfOf shares ≠
      .error (.reason "ERC20: insufficient balance") := by
  by_cases hop : w.storage.operators msgSender = true
  · by_cases hpos : 0 < shares.val
    · by_cases howns : shares ≤ w.storage.sharesOf onBehalfOf
      · by_cases hword : shares.val * w.storage.currentIndex.val < 2 ^ 256
        · obtain ⟨r, hr⟩ := hw.redeem_succeeds hbuffer hop hpos howns hword
          rw [hr]
          simp
        · unfold Fund.redeem onlyOperator
          rw [require_then hop, require_then hpos, require_then howns, Uint256.mul_panics hword]
          simp
      · unfold Fund.redeem onlyOperator
        rw [require_then hop, require_then hpos, require_fails howns]
        simp
    · unfold Fund.redeem onlyOperator
      rw [require_then hop, require_fails hpos]
      simp
  · unfold Fund.redeem onlyOperator
    rw [require_fails hop]
    simp

end SettlementOS.Analysis
