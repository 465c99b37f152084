import SettlementOS.Analysis.Consuming

/-!
# Whether escrows consume what they were allowed

The allowance is one cell for all payments of a sender and asset. Where no payment grants or draws
between another one's last look and its escrow, no escrow lacks allowance and nothing is left when
all are done. Where one finds the approval of another sufficient and escrows first, the other
is refused, and what is left of its approval stays.
-/

set_option autoImplicit false

namespace SettlementOS.Results

open SettlementOS.Computation Service Model.Allowances Program.Allowances Analysis
open SettlementOS.Contracts (Address Bytes32)
open Model (AssetSymbol)

variable {env : Env} {sender : Sender} {symbol : AssetSymbol} {asset : Model.Treasury.DeployedToken}
variable {owner : Contracts.Outside env.contract}

/-- A refusal of nothing is no lack of an allowance. -/
theorem not_lacksAllowance {e : Event (allowanceEffects env.contract)} (h : RefusedAsZero e) :
    lacksAllowance e = false := by
  obtain ⟨id, payer, recipient, token, source, destination, rfl⟩ := h
  show decide (Model.Treasury.refusal (.reason "zero amount") =
    Model.Treasury.refusal (.reason "ERC20: insufficient allowance")) = false
  decide +kernel

/-- In every run in which no payment grants or draws between another one's last look at the
allowance and its escrow, no escrow lacks allowance; and once all payments are done, none of them
of the one amount that is never drawn down, nothing is allowed any more. -/
theorem allowances_consumed {s : State env.contract} {c : (service env sender symbol).Config}
    (hprepared : Prepared env sender symbol asset owner s)
    (hreach : (Config.start (S := service env sender symbol) s).Reaches c)
    (hcovered : Covered asset.address owner s (paymentsOf c))
    (huninterrupted : Uninterrupted c.world.history) :
    (∀ e ∈ c.world.history, lacksAllowance ⟨e.stmt, e.answer⟩ = false) ∧
      ((∀ t ∈ c.threads, t.ended = true) →
        (∀ t ∈ c.threads, t.request.amountUnits ≠ Uint256.max.val) →
        c.world.state.allowance asset.address owner.val = some 0) := by
  constructor
  · intro e he
    by_contra hlacks
    have hrefused : lacksAllowance ⟨e.stmt, e.answer⟩ = true := Bool.eq_true_of_not_eq_false hlacks
    obtain ⟨l, past, hsplit⟩ := List.append_of_mem he
    have hfailed : failed ⟨e.stmt, e.answer⟩ = true := by
      obtain ⟨i, o, r⟩ := e
      cases r with
      | ok a => cases o <;> cases hrefused
      | error err => rfl
    have hzero := refused_as_zero hprepared hreach hcovered huninterrupted hsplit hfailed
    exact hlacks (not_lacksAllowance hzero)
  · intro hended hfinite
    have hdone := allowedAfter_done hprepared hreach hcovered huninterrupted hended hfinite
    rw [(tracked_of_run hprepared hreach).allowed, hdone]

/-! ## Two payments -/

/-- A network with the escrow contract at 1, account 2 as its operator and account 3 as the wallet
of the only sender. -/
def senderNetwork : Env where
  networkId := "base-sepolia"
  contract := .ofNat 1
  tokens := fun symbol => if symbol = .mockUSDC then some ⟨.ofNat 4, 6⟩ else none
  operator := ⟨.ofNat 2, by decide⟩
  entityWallets := fun id => if id = "ent_acme_us" then some ⟨.ofNat 3, by decide⟩ else none
  retries := 4

/-- The sender of the sample. -/
def acme : Sender := ⟨"ent_acme_us", .ofNat 3⟩

/-- The asset, approved, with a hundred units of the sender. -/
def fundedSender : State senderNetwork.contract where
  chain := Contracts.Escrow.history senderNetwork.contract (.ofNat 2)
    [⟨senderNetwork.operator, .deployToken (.ofNat 4)⟩,
      ⟨senderNetwork.operator, .setApprovedAsset (.ofNat 4) true⟩,
      ⟨senderNetwork.operator, .token (.ofNat 4) (.mint (.ofNat 3) 100)⟩]
  events := []

/-- A payment of so many units. -/
def paymentOfUnits (id : String) (onchainId units : ℕ) : Payment where
  id := id
  onchainId := .ofNat onchainId
  recipientWallet := .ofNat 5
  amount := "1"
  amountUnits := units
  sourceCurrency := "USD"
  destinationCurrency := "USD"

/-- The next statement of a payment. -/
def proceed (i : ℕ) : (service senderNetwork acme .mockUSDC).Move := .perform i ()

/-- Where the moves of two payments, of ten units and of five, lead. -/
def escrowing (moves : List (service senderNetwork acme .mockUSDC).Move) :
    Option (service senderNetwork acme .mockUSDC).Config :=
  (Config.start (S := service senderNetwork acme .mockUSDC) fundedSender).run
    (.start (paymentOfUnits "p1" 1 10) :: .start (paymentOfUnits "p2" 2 5) :: moves)

/-- The funded sender is prepared. -/
theorem fundedSender_prepared :
    Prepared senderNetwork acme .mockUSDC ⟨.ofNat 4, 6⟩ ⟨.ofNat 3, by decide⟩ fundedSender where
  token := rfl
  wallet := rfl
  registered := rfl
  chain := ⟨_, _, rfl⟩
  operator := by decide +kernel
  approved := by decide +kernel
  allowance := by decide +kernel

/-- Both payments are there, and done. -/
def bothDone (c : (service senderNetwork acme .mockUSDC).Config) : Bool :=
  decide (paymentsOf c = [paymentOfUnits "p1" 1 10, paymentOfUnits "p2" 2 5]) &&
    c.threads.all (·.ended)

/-- In the sample the sender can cover its payments. -/
theorem covered_of_bothDone {c : (service senderNetwork acme .mockUSDC).Config}
    (h : bothDone c = true) :
    Covered (.ofNat 4) ⟨.ofNat 3, by decide⟩ fundedSender (paymentsOf c) := by
  simp only [bothDone, Bool.and_eq_true, decide_eq_true_eq] at h
  rw [h.1]
  exact ⟨by decide +kernel, by decide +kernel, by decide +kernel⟩

/-- One payment after the other: nothing is refused, and nothing stays allowed. -/
theorem allowances_consumed_in_turn : ∃ c,
    escrowing ((List.replicate 4 (proceed 0)) ++ List.replicate 4 (proceed 1)) = some c ∧
      (∀ e ∈ c.world.history, lacksAllowance ⟨e.stmt, e.answer⟩ = false) ∧
      c.world.state.allowance (.ofNat 4) (.ofNat 3) = some 0 := by
  have hsome : ((escrowing (List.replicate 4 (proceed 0) ++ List.replicate 4 (proceed 1))).any
      fun c => bothDone c && decide (Uninterrupted c.world.history)) = true := by decide +kernel
  obtain ⟨c, hc, hrun⟩ := (Option.any_eq_true _ _).mp hsome
  simp only [Bool.and_eq_true, decide_eq_true_eq] at hrun
  obtain ⟨hdone, huninterrupted⟩ := hrun
  obtain ⟨hnone, hzero⟩ := allowances_consumed fundedSender_prepared ⟨_, hc⟩
    (covered_of_bothDone hdone) huninterrupted
  simp only [bothDone, Bool.and_eq_true, decide_eq_true_eq] at hdone
  obtain ⟨hpayments, hended⟩ := hdone
  refine ⟨c, hc, hnone, hzero (List.all_eq_true.mp hended) fun t ht => ?_⟩
  have hmem : t.request ∈ paymentsOf c := List.mem_map_of_mem ht
  rw [hpayments] at hmem
  rcases List.mem_cons.mp hmem with hfirst | hmem
  · rw [hfirst]
    decide +kernel
  · rw [List.mem_singleton.mp hmem]
    decide +kernel

/-- The payment of five finds the ten of the other sufficient and escrows first: the payment of ten
is refused, and five stay allowed. -/
theorem allowance_shared_falls_short :
    ¬ ∀ (env : Env) (sender : Sender) (symbol : AssetSymbol) (asset : Model.Treasury.DeployedToken)
        (owner : Contracts.Outside env.contract) (s : State env.contract)
        (c : (service env sender symbol).Config), Prepared env sender symbol asset owner s →
      (Config.start (S := service env sender symbol) s).Reaches c →
      Covered asset.address owner s (paymentsOf c) →
      (∀ e ∈ c.world.history, lacksAllowance ⟨e.stmt, e.answer⟩ = false) ∧
        ((∀ t ∈ c.threads, t.ended = true) →
          c.world.state.allowance asset.address owner.val = some 0) := by
  intro h
  have hsome : ((escrowing ([proceed 0, proceed 0, proceed 1, proceed 1] ++
      List.replicate 6 (proceed 0))).any fun c => bothDone c &&
        decide (c.world.state.allowance (.ofNat 4) (.ofNat 3) = some 5)) = true := by
    decide +kernel
  obtain ⟨c, hc, hrun⟩ := (Option.any_eq_true _ _).mp hsome
  simp only [Bool.and_eq_true, decide_eq_true_eq] at hrun
  obtain ⟨hdone, hleft⟩ := hrun
  have hcovered := covered_of_bothDone hdone
  simp only [bothDone, Bool.and_eq_true, decide_eq_true_eq] at hdone
  obtain ⟨-, hzero⟩ := h _ _ _ _ _ _ c fundedSender_prepared ⟨_, hc⟩ hcovered
  have hnothing := hzero (List.all_eq_true.mp hdone.2)
  rw [show c.world.state.allowance _ _ = some 5 from hleft] at hnothing
  cases hnothing

end SettlementOS.Results
