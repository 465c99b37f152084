import SettlementOS.Analysis.FundBooks

/-!
# The logs tell the storage

Whoever calls whatever in whatever order, the logs of the escrow contract and of the fund fit a
reader that takes none of them at its word, and what it has read is what the contracts store.
-/

set_option autoImplicit false

namespace SettlementOS.Results

open SettlementOS.Computation SettlementOS.Contracts
open SettlementOS.Analysis

/-- What the constructors emit. -/
def Escrow.constructorLog (deployer : Address) : Escrow.Log := .escrow (.operatorSet deployer true)

/-- What the constructors emit. -/
def Fund.constructorLog (deployer : Address) : Fund.Log := .fund (.operatorSet deployer true)

/-- In every history the logs of the escrow contract and its tokens are read to the end: every
payment is opened once, by the transfer of its amount to the contract, and closed at most once, by
the transfer of that amount to whom its event stands for. What was read is the storage. -/
theorem escrow_replayed (contract deployer : Address) (calls : List (Escrow.Call contract)) :
    let s := Escrow.history contract deployer calls
    ∃ b : Books, (Escrow.constructorLog deployer :: s.logs).foldlM (Books.read contract) .blank =
      some b ∧ b.Agree s.world := by
  obtain ⟨b, hread, hagree⟩ := (Books.replays contract).run (w := Escrow.deployed deployer)
    (v := { Books.blank with
      operators := Function.update Books.blank.operators deployer true
      last := some (Escrow.constructorLog deployer) }) ⟨rfl, rfl, rfl, fun _ _ _ => rfl⟩ calls
  exact ⟨b, hread, hagree⟩

/-- In every history the logs of the fund and its asset are read to the end: the index only goes on
from where it was, and each subscription and redemption went with its transfer, at the price the
index read so far gives it. What was read is the storage. -/
theorem fund_replayed (contract deployer : Address) (calls : List (Fund.Call contract)) :
    let s := Fund.history contract deployer calls
    ∃ b : FundBooks,
      (Fund.constructorLog deployer :: s.logs).foldlM (FundBooks.read contract) .blank = some b ∧
      b.Agree s.world := by
  obtain ⟨b, hread, hagree⟩ := (FundBooks.replays contract).run (w := Fund.deployed deployer)
    (v := { FundBooks.blank with
      operators := Function.update FundBooks.blank.operators deployer true
      last := some (Fund.constructorLog deployer) }) ⟨rfl, rfl, rfl, fun _ => rfl, fun _ _ => rfl⟩
    calls
  exact ⟨b, hread, hagree⟩

end SettlementOS.Results
