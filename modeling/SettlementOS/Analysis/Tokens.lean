import SettlementOS.Contracts.MockERC20

/-!
# What token calls do

`Transferred` is the effect of a transfer on every balance at once, also where the two ends
are the same account. A token is `Sound` for a contract that approves nobody when its
balances add up to the supply and nothing may be drawn from that contract: the calls of
other accounts keep a token sound and never lower the contract's balance, and on a sound
token a transfer that is covered cannot revert.
-/

set_option autoImplicit false

namespace SettlementOS.Analysis

open SettlementOS.Computation SettlementOS.Contracts

/-- `amount` went from `src` to `dst` and no other balance changed. -/
def Transferred (t t' : MockERC20) (src dst : Address) (amount : Uint256) : Prop :=
  ∀ a, (t'.balanceOf a).val + (if a = src then amount.val else 0) =
    (t.balanceOf a).val + (if a = dst then amount.val else 0)

/-- All balances together. -/
def circulating (t : MockERC20) : ℕ := ∑ a, (t.balanceOf a).val

/-- The balances add up to the supply, and nobody may draw on `contract`. -/
structure Sound (contract : Address) (t : MockERC20) : Prop where
  supply : circulating t = t.totalSupply.val
  allowance : ∀ spender, t.allowance contract spender = 0

/-! ## Balances -/

/-- The balances together change by what one account has. -/
theorem circulating_setBalance (t : MockERC20) (a : Address) (v : Uint256) :
    circulating (t.setBalance a v) + (t.balanceOf a).val = circulating t + v.val :=
  sum_update t.balanceOf (fun _ v => v.val) a v

/-- No balance is more than all of them. -/
theorem balance_le_circulating (t : MockERC20) (a : Address) :
    (t.balanceOf a).val ≤ circulating t :=
  le_sum_entry (fun a => (t.balanceOf a).val) a

/-- A transfer leaves the balances together as they were. -/
theorem Transferred.circulating {t t' : MockERC20} {src dst : Address} {amount : Uint256}
    (h : Transferred t t' src dst amount) : circulating t' = circulating t := by
  have hsum : ∑ a, ((t'.balanceOf a).val + (if a = src then amount.val else 0)) =
      ∑ a, ((t.balanceOf a).val + (if a = dst then amount.val else 0)) :=
    Finset.sum_congr rfl fun a _ => h a
  rw [Finset.sum_add_distrib, Finset.sum_add_distrib, Finset.sum_ite_eq', Finset.sum_ite_eq',
    if_pos (Finset.mem_univ _), if_pos (Finset.mem_univ _)] at hsum
  unfold Analysis.circulating
  omega

/-- What `_transfer` does when it does not revert. -/
theorem _transfer_ok {t t' : MockERC20} {src dst : Address} {amount : Uint256} {done : Bool}
    {logs : List TokenEvent} (h : t._transfer src dst amount = .ok (t', done, logs)) :
    amount ≤ t.balanceOf src ∧ Transferred t t' src dst amount ∧ t'.totalSupply = t.totalSupply ∧
      t'.allowance = t.allowance ∧ done = true ∧ logs = [.transfer src dst amount] := by
  unfold MockERC20._transfer at h
  simp only [bind_eq_ok, require_eq_ok, Uint256.sub_eq_ok, Uint256.add_eq_ok] at h
  obtain ⟨_, hle, debited, hdebit, credited, hcredit, heq⟩ := h
  cases heq
  refine ⟨hle, ?_, rfl, rfl, rfl, rfl⟩
  intro a
  simp only [MockERC20.setBalance, Function.update_apply] at hcredit ⊢
  -- an account at both ends is debited first and credited from there
  by_cases hd : a = dst <;> by_cases hs : a = src
  · subst hd hs
    simp only [if_true] at hcredit ⊢
    omega
  · subst hd
    simp only [if_true, if_neg hs] at hcredit ⊢
    omega
  · subst hs
    simp only [if_true, if_neg hd]
    omega
  · simp only [if_neg hd, if_neg hs]

/-- A covered transfer on a sound token goes through. -/
theorem _transfer_succeeds {contract : Address} {t : MockERC20} (hsound : Sound contract t)
    {src : Address} (dst : Address) {amount : Uint256} (h : amount ≤ t.balanceOf src) :
    ∃ t', t._transfer src dst amount = .ok (t', true, [.transfer src dst amount]) := by
  obtain ⟨debited, hdebit⟩ : ∃ d : Uint256, d.val + amount.val = (t.balanceOf src).val :=
    ⟨⟨(t.balanceOf src).val - amount.val, by omega⟩, Nat.sub_add_cancel h⟩
  have hcirc := circulating_setBalance t src debited
  have hdst := balance_le_circulating (t.setBalance src debited) dst
  have hmax := t.totalSupply.isLt
  have hsum := hsound.supply
  obtain ⟨credited, hcredit⟩ : ∃ c : Uint256,
      c.val = ((t.setBalance src debited).balanceOf dst).val + amount.val :=
    ⟨⟨((t.setBalance src debited).balanceOf dst).val + amount.val, by omega⟩, rfl⟩
  refine ⟨(t.setBalance src debited).setBalance dst credited, ?_⟩
  unfold MockERC20._transfer
  rw [require_then h, Uint256.sub_eq_ok.mpr hdebit]
  show ((t.setBalance src debited).balanceOf dst).add amount >>= _ = _
  rw [Uint256.add_eq_ok.mpr hcredit]
  rfl

/-! ## Allowances -/

/-- Lowering one allowance raises none. -/
theorem setAllowance_le {t : MockERC20} {src spender : Address} {amount rest : Uint256}
    (h : rest.val + amount.val = (t.allowance src spender).val) (a s : Address) :
    (t.setAllowance src spender rest).allowance a s ≤ t.allowance a s := by
  simp only [MockERC20.setAllowance, Function.update_apply]
  split
  next ha =>
    subst ha
    rw [Function.update_apply]
    split
    next hs =>
      subst hs
      show rest.val ≤ (t.allowance a s).val
      omega
    next => exact le_refl _
  next => exact le_refl _

/-- What `transferFrom` does when it does not revert: it never raises an allowance. -/
theorem transferFrom_ok {t t' : MockERC20} {msgSender src dst : Address} {amount : Uint256}
    {done : Bool} {logs : List TokenEvent}
    (h : t.transferFrom msgSender src dst amount = .ok (t', done, logs)) :
    amount ≤ t.allowance src msgSender ∧ amount ≤ t.balanceOf src ∧
    Transferred t t' src dst amount ∧
      t'.totalSupply = t.totalSupply ∧ (∀ a s, t'.allowance a s ≤ t.allowance a s) ∧
      done = true ∧ logs = [.transfer src dst amount] := by
  unfold MockERC20.transferFrom at h
  simp only [bind_eq_ok, require_eq_ok] at h
  obtain ⟨_, hallowed, h⟩ := h
  split at h
  · simp only [bind_eq_ok, Uint256.sub_eq_ok] at h
    obtain ⟨rest, hrest, _, hdrawn, h⟩ := h
    cases hdrawn
    obtain ⟨hle, hmoved, htotal, hallowance, hdone, hlogs⟩ := _transfer_ok h
    refine ⟨hallowed, hle, hmoved, htotal, ?_, hdone, hlogs⟩
    intro a s
    rw [hallowance]
    exact setAllowance_le hrest a s
  · simp only [bind_eq_ok] at h
    obtain ⟨_, hdrawn, h⟩ := h
    cases hdrawn
    obtain ⟨hle, hmoved, htotal, hallowance, hdone, hlogs⟩ := _transfer_ok h
    exact ⟨hallowed, hle, hmoved, htotal, fun _ _ => hallowance ▸ le_refl _, hdone, hlogs⟩

/-- What is drawn comes off the allowance, except off the greatest one. -/
theorem transferFrom_allowance {t t' : MockERC20} {msgSender src dst : Address} {amount : Uint256}
    {done : Bool} {logs : List TokenEvent}
    (h : t.transferFrom msgSender src dst amount = .ok (t', done, logs)) :
    (t'.allowance src msgSender).val =
      if t.allowance src msgSender = Uint256.max then (t.allowance src msgSender).val
      else (t.allowance src msgSender).val - amount.val := by
  unfold MockERC20.transferFrom at h
  simp only [bind_eq_ok, require_eq_ok] at h
  obtain ⟨_, -, h⟩ := h
  split at h
  · rename_i hfinite
    simp only [bind_eq_ok, Uint256.sub_eq_ok] at h
    obtain ⟨rest, hrest, _, hdrawn, h⟩ := h
    cases hdrawn
    obtain ⟨-, -, -, hallowance, -⟩ := _transfer_ok h
    rw [if_neg hfinite, hallowance]
    simp only [MockERC20.setAllowance, Function.update_self]
    omega
  · rename_i hmax
    simp only [bind_eq_ok] at h
    obtain ⟨_, hdrawn, h⟩ := h
    cases hdrawn
    obtain ⟨-, -, -, hallowance, -⟩ := _transfer_ok h
    rw [if_pos (not_not.mp hmax), hallowance]

/-- A draw that is allowed and covered goes through on a sound token. -/
theorem transferFrom_succeeds {contract : Address} {t : MockERC20} (hsound : Sound contract t)
    {msgSender src : Address} (dst : Address) {amount : Uint256}
    (hallowed : amount ≤ t.allowance src msgSender) (hcovered : amount ≤ t.balanceOf src)
    (hsrc : src ≠ contract) :
    ∃ t', t.transferFrom msgSender src dst amount =
      .ok (t', true, [.transfer src dst amount]) := by
  unfold MockERC20.transferFrom
  rw [require_then hallowed]
  by_cases hmax : t.allowance src msgSender = Uint256.max
  · rw [if_neg (not_not.mpr hmax)]
    exact _transfer_succeeds hsound dst hcovered
  · obtain ⟨rest, hrest⟩ : ∃ r : Uint256, r.val + amount.val = (t.allowance src msgSender).val :=
      ⟨⟨(t.allowance src msgSender).val - amount.val, by omega⟩, Nat.sub_add_cancel hallowed⟩
    have hdrawn : Sound contract (t.setAllowance src msgSender rest) := by
      refine ⟨hsound.supply, fun spender => ?_⟩
      simp only [MockERC20.setAllowance, Function.update_of_ne hsrc.symm]
      exact hsound.allowance spender
    rw [if_pos hmax, Uint256.sub_eq_ok.mpr hrest]
    exact _transfer_succeeds hdrawn dst hcovered

/-- A transfer keeps a token sound, whoever makes it. -/
theorem Sound.transferred {contract src dst : Address} {t t' : MockERC20} {amount : Uint256}
    (h : Sound contract t) (hmoved : Transferred t t' src dst amount)
    (hsupply : t'.totalSupply = t.totalSupply)
    (hlower : ∀ a s, t'.allowance a s ≤ t.allowance a s) : Sound contract t' where
  supply := by rw [hmoved.circulating, hsupply, h.supply]
  allowance := by
    intro spender
    have hle := hlower contract spender
    rw [h.allowance spender] at hle
    exact le_antisymm hle (Fin.zero_le _)

/-! ## The calls of other accounts -/

/-- A balance that a transfer takes nothing from does not drop. -/
theorem Transferred.le {t t' : MockERC20} {src dst a : Address} {amount : Uint256}
    (h : Transferred t t' src dst amount) (ha : a = src → amount = 0) :
    t.balanceOf a ≤ t'.balanceOf a := by
  have hmoved := h a
  show (t.balanceOf a).val ≤ (t'.balanceOf a).val
  by_cases hs : a = src
  · rw [ha hs] at hmoved
    simp only [Fin.val_zero, ite_self] at hmoved
    omega
  · rw [if_neg hs] at hmoved
    omega

/-- Minting raises the supply and one balance by the same amount. -/
theorem mint_ok {t t' : MockERC20} {dst : Address} {amount : Uint256} {logs : List TokenEvent}
    (h : t.mint dst amount = .ok (t', logs)) :
    t'.totalSupply.val = t.totalSupply.val + amount.val ∧
      (∀ a, (t'.balanceOf a).val = (t.balanceOf a).val + if a = dst then amount.val else 0) ∧
      t'.allowance = t.allowance := by
  unfold MockERC20.mint at h
  simp only [bind_eq_ok, Uint256.add_eq_ok] at h
  obtain ⟨supply, hsupply, balance, hbalance, heq⟩ := h
  cases heq
  refine ⟨hsupply, ?_, rfl⟩
  intro a
  simp only [MockERC20.setBalance, Function.update_apply]
  by_cases hd : a = dst
  · subst hd
    simp only [if_true]
    exact hbalance
  · simp only [if_neg hd, Nat.add_zero]

/-- Minting keeps the token sound. -/
theorem Sound.mint {contract dst : Address} {t t' : MockERC20} {amount : Uint256}
    {logs : List TokenEvent} (hsound : Sound contract t) (h : t.mint dst amount = .ok (t', logs)) :
    Sound contract t' := by
  obtain ⟨hsupply, hbalance, hallowance⟩ := mint_ok h
  refine ⟨?_, fun spender => hallowance ▸ hsound.allowance spender⟩
  have hsum : circulating t' = circulating t + amount.val := by
    unfold circulating
    simp only [hbalance, Finset.sum_add_distrib, Finset.sum_ite_eq', Finset.mem_univ, if_true]
  have := hsound.supply
  omega

/-- Whatever another account asks of a sound token, it stays sound and the contract's balance
does not drop. -/
theorem serve_ok {contract : Address} {t t' : MockERC20} (hsound : Sound contract t)
    {msgSender : Address} (hother : msgSender ≠ contract) {request : MockERC20.Request}
    {logs : List TokenEvent} (h : t.serve msgSender request = .ok (t', logs)) :
    Sound contract t' ∧ t.balanceOf contract ≤ t'.balanceOf contract := by
  cases request with
  | mint dst amount =>
    have hbalance := (mint_ok h).2.1 contract
    refine ⟨hsound.mint h, ?_⟩
    show (t.balanceOf contract).val ≤ (t'.balanceOf contract).val
    omega
  | transfer dst amount =>
    simp only [MockERC20.serve, MockERC20.transfer, bind_eq_ok] at h
    obtain ⟨⟨_, done, _⟩, htransfer, heq⟩ := h
    cases heq
    obtain ⟨_, hmoved, hsupply, hallowance, _, _⟩ := _transfer_ok htransfer
    exact ⟨hsound.transferred hmoved hsupply fun _ _ => hallowance ▸ le_refl _,
      hmoved.le fun hc => absurd hc.symm hother⟩
  | approve spender amount =>
    cases h
    refine ⟨⟨hsound.supply, ?_⟩, le_refl _⟩
    intro s
    simp only [MockERC20.setAllowance, Function.update_of_ne (Ne.symm hother)]
    exact hsound.allowance s
  | transferFrom src dst amount =>
    simp only [MockERC20.serve, bind_eq_ok] at h
    obtain ⟨⟨_, done, _⟩, htransfer, heq⟩ := h
    cases heq
    obtain ⟨hallowed, _, hmoved, hsupply, hlower, _, _⟩ := transferFrom_ok htransfer
    refine ⟨hsound.transferred hmoved hsupply hlower, hmoved.le ?_⟩
    -- the contract approves nobody, so only nothing can be drawn from it
    intro hc
    rw [← hc, hsound.allowance msgSender] at hallowed
    exact le_antisymm hallowed (Fin.zero_le _)

/-- A token nobody holds. -/
theorem sound_deployed (contract : Address) : Sound contract MockERC20.deployed where
  supply := by
    unfold circulating MockERC20.deployed
    simp
  allowance := fun _ => rfl

end SettlementOS.Analysis
