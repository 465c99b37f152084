import SettlementOS.Analysis.Fund

/-!
# What a subscription loses when it is redeemed

A subscription rounds its shares down and a redemption its payment. At an unchanged index the
first costs less than the worth of a share, which is more than one unit once the index is above
par.
-/

set_option autoImplicit false

namespace SettlementOS.Results

open SettlementOS.Computation SettlementOS.Contracts SettlementOS.Contracts.Fund
open SettlementOS.Analysis

variable {contract msgSender msgSender' account account' : Address} {w w₁ w₂ w₃ : World}
  {amount shares returned : Uint256} {logs logs' : List Log}

/-- **What a round trip loses.** Whatever happens in between at the same index, redeeming exactly
the shares of a subscription returns at most what was paid, and at least that but one unit exactly
when what the shares were rounded by is worth no more than a unit. -/
theorem dust_iff
    (hsubscribe : subscribe contract w msgSender account amount = .ok (w₁, shares, logs))
    (hindex : w₂.storage.currentIndex = w.storage.currentIndex)
    (hredeem : redeem contract w₂ msgSender' account' shares = .ok (w₃, returned, logs')) :
    (returned ≤ amount ∧ amount.val - 1 ≤ returned.val) ↔
      amount.val * INDEX_SCALE.val % w.storage.currentIndex.val ≤ INDEX_SCALE.val := by
  obtain ⟨-, -, -, hshares, hpaid, -⟩ := subscribe_ok hsubscribe
  obtain ⟨-, -, -, hreturned, -⟩ := redeem_ok hredeem
  rw [hindex, hshares] at hreturned
  have hscale : 0 < INDEX_SCALE.val := by decide
  have hle : returned ≤ amount := by
    show returned.val ≤ amount.val
    rw [hreturned]
    exact roundTrip_le _ _ _ hscale
  rw [and_iff_right hle, hreturned]
  exact roundTrip_near_iff _ _ _ hscale hpaid

/-! ## Samples -/

/-- The fund, its operator and the treasury. -/
def parkingFund : Address := .ofNat 1
def parkingOperator : Address := .ofNat 2
def parkingTreasury : Address := .ofNat 3

/-- A fund at an index, whose asset is worth ten units to everybody. -/
def sampleFund (index : Uint256) : World where
  storage :=
    { admin := parkingOperator, currentIndex := index, totalShares := 0, operators := fun _ => true
      sharesOf := fun _ => 0 }
  asset := { totalSupply := 0, balanceOf := fun _ => 10, allowance := fun _ _ => 10 }

/-- What comes back of an amount at an index. -/
def roundTrip (index amount : Uint256) : Except Revert Uint256 := do
  let (w, shares, _) ← subscribe parkingFund (sampleFund index) parkingOperator parkingTreasury
    amount
  let (_, returned, _) ← redeem parkingFund w parkingOperator parkingTreasury shares
  return returned

/-- What comes back was subscribed and redeemed. -/
theorem roundTrip_ok {index amount returned : Uint256} (h : roundTrip index amount = .ok returned) :
    ∃ w₁ w₂ shares logs logs',
      subscribe parkingFund (sampleFund index) parkingOperator parkingTreasury amount =
        .ok (w₁, shares, logs) ∧
        w₁.storage.currentIndex = index ∧
          redeem parkingFund w₁ parkingOperator parkingTreasury shares =
            .ok (w₂, returned, logs') := by
  unfold roundTrip at h
  simp only [bind_eq_ok] at h
  obtain ⟨⟨w₁, shares, logs⟩, hsubscribe, ⟨w₂, returned', logs'⟩, hredeem, heq⟩ := h
  cases heq
  obtain ⟨_, _, _, _, _, _, _, _, _, _, _, _, rfl⟩ := subscribe_ok hsubscribe
  exact ⟨_, w₂, shares, logs, logs', hsubscribe, rfl, hredeem⟩

/-- Three units at an index of 1.9 buy one share, and come back as one. -/
theorem dust_of_two : ¬∀ (contract msgSender account : Address) (w w₁ w₂ : World)
    (amount shares returned : Uint256) (logs logs' : List Log),
      INDEX_SCALE ≤ w.storage.currentIndex →
        subscribe contract w msgSender account amount = .ok (w₁, shares, logs) →
          w₁.storage.currentIndex = w.storage.currentIndex →
            redeem contract w₁ msgSender account shares = .ok (w₂, returned, logs') →
              returned ≤ amount ∧ amount.val - 1 ≤ returned.val := by
  intro h
  have hreturned : roundTrip ⟨19 * 10 ^ 17, by decide⟩ 3 = .ok 1 := by decide +kernel
  obtain ⟨w₁, w₂, shares, logs, logs', hsubscribe, hindex, hredeem⟩ := roundTrip_ok hreturned
  exact absurd (h _ _ _ _ w₁ w₂ 3 shares 1 logs logs' (by decide) hsubscribe hindex hredeem).2
    (by decide)

/-- Two units at an index of 1.5 buy one share, and lose one. -/
theorem dust_of_one : ∃ returned, roundTrip ⟨15 * 10 ^ 17, by decide⟩ 2 = .ok returned ∧
    returned ≤ 2 ∧ (2 : Uint256).val - 1 ≤ returned.val := by
  have hreturned : roundTrip ⟨15 * 10 ^ 17, by decide⟩ 2 = .ok 1 := by decide +kernel
  obtain ⟨w₁, w₂, shares, logs, logs', hsubscribe, hindex, hredeem⟩ := roundTrip_ok hreturned
  exact ⟨1, hreturned, (dust_iff hsubscribe hindex hredeem).2 (by decide)⟩

end SettlementOS.Results
