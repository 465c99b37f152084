import SettlementOS.Model.Fx
import SettlementOS.Model.Payment

/-!
# The compliance providers (`lib/compliance.ts`)

A screening makes seven checks. Four of them are worked out from the rows; the other three ask a
vendor, or the mock that stands in for one, and what is answered there is the outside's to choose.
-/

set_option autoImplicit false

namespace SettlementOS.Model

/-- `ProviderResult`, the fields a check stores. -/
structure ProviderResult where
  provider : String
  status : ComplianceStatus
  score : ℕ
  reasonCodes : List String := []
  deriving DecidableEq, Repr

/-- `TX_REVIEW_THRESHOLD_MINOR`. -/
def txReviewThresholdMinor : ℕ := 25000000

/-- `TX_FAIL_THRESHOLD_MINOR`. -/
def txFailThresholdMinor : ℕ := 100000000

/-- `kybProvider`. -/
def kybProvider (entity : Entity) (kind : String) : ProviderResult :=
  if entity.kybStatus = "PASSED" then ⟨"mock_kyb", .pass, 5, []⟩
  else if entity.kybStatus = "PENDING" then
    ⟨"mock_kyb", .manualReview, 50, [s!"{kind}_kyb_pending"]⟩
  else ⟨"mock_kyb", .fail, 95, [s!"{kind}_kyb_failed"]⟩

/-- `transactionRiskProvider`. -/
def transactionRiskProvider (amount sourceCurrency : String) : Except Err ProviderResult := do
  let amountMinor ← parseAmount amount sourceCurrency
  let usd ← usdEquivalent amountMinor sourceCurrency
  if txFailThresholdMinor < usd then
    return ⟨"mock_tx_monitoring", .fail, 90, ["amount_exceeds_hard_limit"]⟩
  else if txReviewThresholdMinor < usd then
    return ⟨"mock_tx_monitoring", .manualReview, 65, ["amount_exceeds_review_threshold"]⟩
  else return ⟨"mock_tx_monitoring", .pass, min (usd / 1000000) 30, []⟩

/-- `corridorRiskProvider`. -/
def corridorRiskProvider (sender recipient : Entity) (source dest : String) : ProviderResult :=
  let corridor := s!"{source}-{dest}"
  if source = dest ∨
      (corridor ∈ sender.approvedCorridors ∧ corridor ∈ recipient.approvedCorridors) then
    ⟨"mock_corridor_risk", .pass, 10, []⟩
  else ⟨"mock_corridor_risk", .manualReview, 60, ["corridor_not_pre_approved"]⟩

/-- `walletRiskCheck`, with the answer of the oracle. -/
def walletRiskCheck (wallet : Option Wallet) (oracle : ProviderResult) : ProviderResult :=
  match wallet with
  | none => ⟨"platform_policy", .manualReview, 60, ["wallet_not_registered"]⟩
  | some wallet =>
    if wallet.allowlisted then oracle
    else ⟨"platform_policy", .manualReview, 55, ["wallet_not_allowlisted"]⟩

/-- What the vendors of one screening answer. -/
structure VendorAnswers where
  sanctions : ProviderResult := ⟨"mock_sanctions", .pass, 0, []⟩
  senderWallet : ProviderResult := ⟨"mock_wallet_risk", .pass, 0, []⟩
  recipientWallet : ProviderResult := ⟨"mock_wallet_risk", .pass, 0, []⟩
  deriving DecidableEq, Repr

/-- The row of a check. -/
def ProviderResult.check (result : ProviderResult) (checkType : String) : ComplianceCheck :=
  ⟨result.provider, checkType, result.status, result.score, result.reasonCodes⟩

/-- The checks of one screening. -/
def screeningChecks (sender recipient : Entity) (payment : Payment)
    (senderWallet recipientWallet : Option Wallet) (answers : VendorAnswers) :
    Except Err (List ComplianceCheck) := do
  let txRisk ← transactionRiskProvider payment.amount payment.sourceCurrency
  return [
    (kybProvider sender "sender").check "KYB_SENDER",
    (kybProvider recipient "recipient").check "KYC_RECIPIENT",
    answers.sanctions.check "SANCTIONS",
    (walletRiskCheck senderWallet answers.senderWallet).check "WALLET_RISK_SENDER",
    (walletRiskCheck recipientWallet answers.recipientWallet).check "WALLET_RISK_RECIPIENT",
    txRisk.check "TX_RISK",
    (corridorRiskProvider sender recipient payment.sourceCurrency
      payment.destinationCurrency).check "CORRIDOR_RISK"]

/-! ## Outcome -/

/-- `ComplianceOutcome.overall`. -/
inductive ComplianceOverall where
  | approved
  | manualReview
  | rejected
  deriving DecidableEq, Repr

/-- How the checks of one screening add up. -/
def complianceOverall (checks : List ComplianceCheck) : ComplianceOverall :=
  if checks.any (·.status == .fail) then .rejected
  else if checks.any (·.status == .manualReview) then .manualReview
  else .approved

/-- The checks a screening is made of. -/
def checkTypes : List String :=
  ["KYB_SENDER", "KYC_RECIPIENT", "SANCTIONS", "WALLET_RISK_SENDER", "WALLET_RISK_RECIPIENT",
    "TX_RISK", "CORRIDOR_RISK"]

/-- A screening makes all of them. -/
theorem checkTypes_of_screening {sender recipient : Entity} {payment : Payment}
    {senderWallet recipientWallet : Option Wallet} {answers : VendorAnswers}
    {checks : List ComplianceCheck}
    (h : screeningChecks sender recipient payment senderWallet recipientWallet answers =
      .ok checks) : checks.map ComplianceCheck.checkType = checkTypes := by
  unfold screeningChecks at h
  cases ht : transactionRiskProvider payment.amount payment.sourceCurrency with
  | error e =>
    rw [ht] at h
    cases h
  | ok txRisk =>
    rw [ht] at h
    cases h
    rfl

/-- No check of a screening that was not rejected failed. -/
theorem no_fail_of_overall {checks : List ComplianceCheck}
    (h : complianceOverall checks ≠ .rejected) : ∀ check ∈ checks, check.status ≠ .fail := by
  intro check hmem hfail
  refine h (if_pos (List.any_eq_true.mpr ⟨check, hmem, ?_⟩))
  rw [hfail]
  rfl

/-- No check of a screening that approved wants a review. -/
theorem no_review_of_approved {checks : List ComplianceCheck}
    (h : complianceOverall checks = .approved) :
    ∀ check ∈ checks, check.status ≠ .manualReview := by
  intro check hmem hreview
  have hany : checks.any (·.status == .manualReview) = true := by
    refine List.any_eq_true.mpr ⟨check, hmem, ?_⟩
    rw [hreview]
    rfl
  unfold complianceOverall at h
  rw [hany] at h
  split at h <;> cases h

end SettlementOS.Model
