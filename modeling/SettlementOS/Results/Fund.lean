import SettlementOS.Analysis.Fund

/-!
# Every share can be redeemed

However subscriptions, redemptions, accruals and transfers of the asset follow each
other, the fund's total is what its accounts hold, its index never drops, and only an
accrual can use up its buffer; so from a state where the buffer is not negative every
holder is paid, whatever the others redeem first and in whatever portions.
-/

set_option autoImplicit false

namespace SettlementOS.Results

open SettlementOS.Computation SettlementOS.Contracts SettlementOS.Contracts.Fund
open SettlementOS.Analysis

/-- In every history of the fund the total is the sum of all shares, no further call lowers the
index, no subscription or redemption (nor anything but an accrual) lowers the buffer, and once
the buffer is not negative every redemption that follows, after any calls but accruals, is not
refused for lack of the asset: an operator's goes through for shares the account has, as long
as their product with the index is a word. -/
theorem fund_redeemable (contract deployer : Address) (calls : List (Call contract)) :
    let s := history contract deployer calls
    ∑ a, (s.world.storage.sharesOf a).val = s.world.storage.totalShares.val ∧
      (∀ more, s.world.storage.currentIndex ≤ (s.run more).world.storage.currentIndex) ∧
      (∀ c : Call contract, ¬ Accrues c.request →
        buffer contract s.world ≤ buffer contract (s.transact c).world) ∧
      (0 ≤ buffer contract s.world → ∀ more : List (Call contract),
        (∀ c ∈ more, ¬ Accrues c.request) → ∀ msgSender onBehalfOf shares,
          redeem contract (s.run more).world msgSender onBehalfOf shares ≠
              .error (.reason "ERC20: insufficient balance") ∧
            ((s.run more).world.storage.operators msgSender = true → 0 < shares.val →
              shares ≤ (s.run more).world.storage.sharesOf onBehalfOf →
              shares.val * (s.run more).world.storage.currentIndex.val < 2 ^ 256 →
              ∃ r, redeem contract (s.run more).world msgSender onBehalfOf shares = .ok r)) := by
  intro s
  have hs : Backed contract s.world := backed_history contract deployer calls
  refine ⟨hs.shares, fun more => (hs.run more).2.1, fun c => (hs.transact c).2.2, ?_⟩
  intro hbuffer more hmore msgSender onBehalfOf shares
  obtain ⟨hbacked, _, hrun⟩ := hs.run more
  have hstill : 0 ≤ buffer contract (s.run more).world := le_trans hbuffer (hrun hmore)
  exact ⟨hbacked.redeem_not_short hstill msgSender onBehalfOf shares,
    fun hop hpos howns hword => hbacked.redeem_succeeds hstill hop hpos howns hword⟩

end SettlementOS.Results
