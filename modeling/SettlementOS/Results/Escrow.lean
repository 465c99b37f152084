import SettlementOS.Analysis.Escrow

/-!
# Escrowed money is there and leaves once

Whoever calls whatever in whatever order, with any release address and any sender, the
escrow contract holds of each asset what its INITIATED payments add up to, each payment
has moved its amount in once and out at most once, and an operator's way out of an
INITIATED payment goes through.
-/

set_option autoImplicit false

namespace SettlementOS.Results

open SettlementOS.Computation SettlementOS.Contracts SettlementOS.Contracts.Escrow
open SettlementOS.Analysis

/-- In every history the contract covers what it owes of each asset; each payment's token
transfers are the one that took its amount in and at most one that paid it out whole, to the
release address of its settlement or to its sender; no call that names no payment takes tokens
from the contract; and an operator's settle, cancel or refund of an INITIATED payment succeeds. -/
theorem escrow_covered (contract deployer : Address) (calls : List (Call contract)) :
    let s := history contract deployer calls
    (∀ asset, owed s.world asset ≤ held s.world asset contract) ∧
      (∀ id, Traced contract id (s.world.storage.payments id) (flows id s.receipts)) ∧
      (∀ c : Call contract, paymentOf c.request = none → ∀ asset,
        held s.world asset contract ≤ held (s.transact c).world asset contract) ∧
      ∀ (c : Call contract) (id : Bytes32), LetsOut id c.request →
        s.world.storage.operators c.msgSender.val = true →
        (s.world.storage.payments id).state = .INITIATED →
        ∃ r, exec contract s.world c = .ok r := by
  intro s
  have hs : Kept s := kept_history contract deployer calls
  refine ⟨hs.solvent, hs.traced, ?_, ?_⟩
  · intro c hc asset
    unfold Ledger.transact
    split
    next w logs heq => exact (exec_aside hs.sound hc heq).2.2 asset
    next => exact le_refl _
  · exact fun c id hout hop hinit => hs.letsOut_succeeds hout hop hinit

/-- A payment from account 2 of 70 units of the token at 3, settled to the escrow contract
itself (at 1): the contract keeps the 70, and only the first settlement counts. -/
example :
    let call (request : Request) : Call (Address.ofNat 1) := ⟨⟨Address.ofNat 2, by decide⟩, request⟩
    let token := Address.ofNat 3
    let id := Bytes32.ofNat 7
    let settle := call (.settlePayment id (Bytes32.ofNat 0) (Address.ofNat 1) 70 "mockJPY")
    let s := history (Address.ofNat 1) (Address.ofNat 2)
      [call (.deployToken token), call (.setApprovedAsset token true),
        call (.token token (.mint (Address.ofNat 2) 100)),
        call (.token token (.approve (Address.ofNat 1) 70)),
        call (.initiatePayment id (Address.ofNat 2) (Address.ofNat 4) token 70 "USD" "JPY"),
        settle, settle]
    (s.world.storage.payments id).state = .SETTLED ∧ held s.world token (Address.ofNat 1) = 70 ∧
      (flows id s.receipts).length = 2 := by
  decide +kernel

end SettlementOS.Results
