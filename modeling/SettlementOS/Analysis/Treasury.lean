import SettlementOS.Computation.Trails
import SettlementOS.Program.Treasury

/-!
# What each operation of the treasury performs

Most statements of an operation read. The others are told apart by their kind, and for every
function it is listed which kinds it performs, whatever it is answered.
-/

set_option autoImplicit false

namespace SettlementOS.Analysis

open SettlementOS.Computation Model.Treasury Program.Treasury
open Model (AssetSymbol Err)

/-! ## Arguments of transactions -/

/-- A number that is an argument is that argument's value. -/
theorem encode_ok {n : ℤ} {word : Uint256} (h : encode n = .ok word) : (word.val : ℤ) = n := by
  unfold encode at h
  split_ifs at h
  obtain rfl := Except.ok.inj h
  exact Int.toNat_of_nonneg (by assumption)

/-- A number below the bound is an argument. -/
theorem encode_natCast {n : ℕ} (h : n < 2 ^ 256) : encode n = .ok ⟨n, h⟩ := by
  have hn : ((n : ℤ)).toNat < 2 ^ 256 := h
  have hnonneg : (0 : ℤ) ≤ n := Int.natCast_nonneg n
  unfold encode
  rw [dif_pos hn, if_pos hnonneg]
  rfl

/-! ## What the helpers perform -/

section

variable {env : Env} {α : Type} {U : Stmt → Prop}

/-- A statement is performed, and its answer is returned or thrown. -/
theorem performs_call {o : Stmt} (h : U o) : (call o).Uses U := ⟨h, fun r => Prog.uses_ofExcept r⟩

/-- An outcome performs nothing. -/
theorem performs_lift (x : Except Err α) : (lift x).Uses U := Prog.uses_ofExcept x

/-- An operator's write performs its statement, or nothing. -/
theorem performs_mmfOperatorWrite {o : Stmt} (h : U o) :
    (mmfOperatorWrite env (call o)).Uses U := by
  unfold mmfOperatorWrite
  split
  · trivial
  · exact performs_call h

/-- Whether the fund takes an asset is read from the fund. -/
theorem performs_fundAssetFor (asset : String) (h : U .asset) :
    (fundAssetFor env asset).Uses U := by
  apply Prog.Uses.bind (performs_lift _)
  intro _
  split
  · trivial
  · apply Prog.Uses.bind (performs_lift _)
    intro token
    apply Prog.Uses.bind (performs_call h)
    intro backing
    split <;> trivial

/-- The free balance is the balance and the reservations. -/
theorem performs_freeTreasuryBalance (symbol : AssetSymbol) (hb : ∀ token, U (.balanceOf token))
    (hr : U (.findReservations symbol)) : (freeTreasuryBalance env symbol).Uses U := by
  apply Prog.Uses.bind (performs_lift _)
  intro token
  apply Prog.Uses.bind (performs_call (hb _))
  intro balance
  apply Prog.Uses.bind (performs_call hr)
  intro reservations
  exact Prog.Uses.bind (performs_lift _) fun _ => trivial

/-- An entity's eligibility is read from its row. -/
theorem performs_assertEligible (entityId : String) (h : U (.findEntity entityId)) :
    (assertEligible entityId).Uses U := by
  apply Prog.Uses.bind (performs_call h)
  intro entity
  split
  · trivial
  · split <;> trivial

/-- Who may park is read from the entity's row. -/
theorem performs_assertMayPark (args : ParkArgs) (h : ∀ entityId, U (.findEntity entityId)) :
    (assertMayPark args).Uses U := by
  unfold assertMayPark
  split
  · exact performs_assertEligible _ (h _)
  · trivial

/-- The index is read from the fund. -/
theorem performs_currentIndexOf (h : U .currentIndex) : (currentIndexOf env).Uses U :=
  Prog.Uses.bind (performs_lift _) fun _ => performs_call h

/-- The parked balance is the active positions and the index. -/
theorem performs_parkedBalance (symbol : AssetSymbol) (ha : U (.findActive symbol))
    (hi : U .currentIndex) : (parkedBalance env symbol).Uses U := by
  unfold parkedBalance
  split
  · trivial
  · apply Prog.Uses.bind (performs_call ha)
    intro positions
    split
    · trivial
    · exact Prog.Uses.bind (performs_currentIndexOf hi) fun _ => trivial

/-- The allowance is read, and raised to the most there is. -/
theorem performs_ensureTreasuryAllowance (token : Contracts.Address) (amount : ℕ)
    (h : U (.allowance token)) (ha : U (.approve token (2 ^ 256 - 1))) :
    (ensureTreasuryAllowance token amount).Uses U := by
  apply Prog.Uses.bind (performs_call h)
  intro allowed
  split
  · trivial
  · exact Prog.Uses.bind (performs_call ha) fun _ => trivial

end

/-! ## Kinds of statements -/

/-- The kinds of statements. -/
inductive TreasuryKind where
  | read
  | approve
  | subscribe
  | redeem
  | accrue
  | recordPark
  | recordRecall
  | audit
  deriving DecidableEq

/-- The kind of a statement. -/
def treasuryKind : Stmt → TreasuryKind
  | .approve .. => .approve
  | .subscribe _ => .subscribe
  | .redeem _ => .redeem
  | .accrue _ => .accrue
  | .recordPark .. => .recordPark
  | .recordRecall .. => .recordRecall
  | .audit _ => .audit
  | _ => .read

/-- A statement of one of these kinds. -/
def OfKind (ks : List TreasuryKind) (o : Stmt) : Prop := treasuryKind o ∈ ks

variable {env : Env} {α : Type} {ks : List TreasuryKind}

/-- A statement is of its kind. -/
theorem of_call {o : Stmt} (h : treasuryKind o ∈ ks) : (call o).Uses (OfKind ks) := performs_call h

/-- So is an operator's write. -/
theorem of_mmfOperatorWrite {o : Stmt} (h : treasuryKind o ∈ ks) :
    (mmfOperatorWrite env (call o)).Uses (OfKind ks) := performs_mmfOperatorWrite h

/-! ## The operations -/

/-- A subscription reads, subscribes and records the parking. -/
theorem of_subscribeFor (asset : FundAsset) (args : ParkArgs) (assetAmount : ℕ)
    (h : .read ∈ ks) (hs : .subscribe ∈ ks) (hr : .recordPark ∈ ks) :
    (subscribeFor env asset args assetAmount).Uses (OfKind ks) := by
  apply Prog.Uses.bind (of_call h)
  intro indexAtEntry
  apply Prog.Uses.bind (of_call h)
  intro sharesBefore
  apply Prog.Uses.bind (of_mmfOperatorWrite hs)
  intro hash
  apply Prog.Uses.bind (of_call h)
  intro sharesAfter
  exact Prog.Uses.bind (of_call hr) fun _ => trivial

/-- Parking also approves. -/
theorem of_park (args : ParkArgs) (h : .read ∈ ks) (ha : .approve ∈ ks) (hs : .subscribe ∈ ks)
    (hr : .recordPark ∈ ks) : (park env args).Uses (OfKind ks) := by
  apply Prog.Uses.bind (performs_assertMayPark _ fun _ => h)
  intro _
  apply Prog.Uses.bind (performs_fundAssetFor _ h)
  intro asset
  apply Prog.Uses.bind (performs_lift _)
  intro assetAmount
  apply Prog.Uses.bind (performs_freeTreasuryBalance _ (fun _ => h) h)
  intro balance
  split
  · trivial
  · apply Prog.Uses.bind (performs_ensureTreasuryAllowance _ _ h ha)
    intro _
    exact of_subscribeFor _ _ _ h hs hr

/-- A redemption reads, redeems and records the recall. -/
theorem of_redeemFor (asset : FundAsset) (position : Position) (h : .read ∈ ks)
    (hd : .redeem ∈ ks) (hr : .recordRecall ∈ ks) :
    (redeemFor env asset position).Uses (OfKind ks) := by
  apply Prog.Uses.bind (of_call h)
  intro indexAtExit
  apply Prog.Uses.bind (of_call h)
  intro balanceBefore
  apply Prog.Uses.bind (of_mmfOperatorWrite hd)
  intro hash
  apply Prog.Uses.bind (of_call h)
  intro balanceAfter
  exact Prog.Uses.bind (of_call hr) fun _ => trivial

/-- Recalling a position does no more. -/
theorem of_recallPosition (positionId : ℕ) (h : .read ∈ ks) (hd : .redeem ∈ ks)
    (hr : .recordRecall ∈ ks) : (recallPosition env positionId).Uses (OfKind ks) := by
  apply Prog.Uses.bind (of_call h)
  intro position
  split
  · trivial
  · split
    · trivial
    · apply Prog.Uses.bind (performs_fundAssetFor _ h)
      intro asset
      exact of_redeemFor _ _ h hd hr

/-- Nor does recalling one position after another. -/
theorem of_recallUntil (shortfall : ℤ) (positions : List Position) (h : .read ∈ ks)
    (hd : .redeem ∈ ks) (hr : .recordRecall ∈ ks) (recalled : List RecallResult) (freed : ℤ) :
    (recallUntil env shortfall positions recalled freed).Uses (OfKind ks) := by
  induction positions generalizing recalled freed with
  | nil => trivial
  | cons position positions ih =>
    unfold recallUntil
    split
    · trivial
    · exact Prog.Uses.bind (of_recallPosition _ h hd hr) fun result => ih _ _

/-- Recalling for a shortfall writes its event as well. -/
theorem of_recallShortfall (asset : FundAsset) (args : RecallForPaymentArgs) (needed free : ℕ)
    (h : .read ∈ ks) (hd : .redeem ∈ ks) (hr : .recordRecall ∈ ks) (ha : .audit ∈ ks) :
    (recallShortfall env asset args needed free).Uses (OfKind ks) := by
  apply Prog.Uses.bind (performs_parkedBalance _ h h)
  intro parked
  dsimp only
  split
  · trivial
  · apply Prog.Uses.bind (of_call h)
    intro positions
    apply Prog.Uses.bind (of_recallUntil _ _ h hd hr _ _)
    intro result
    split
    · trivial
    · exact Prog.Uses.bind (of_call ha) fun _ => trivial

/-- So does recalling for a payment. -/
theorem of_recallForPayment (args : RecallForPaymentArgs) (h : .read ∈ ks) (hd : .redeem ∈ ks)
    (hr : .recordRecall ∈ ks) (ha : .audit ∈ ks) :
    (recallForPayment env args).Uses (OfKind ks) := by
  apply Prog.Uses.bind (performs_fundAssetFor _ h)
  intro asset
  apply Prog.Uses.bind (performs_lift _)
  intro needed
  apply Prog.Uses.bind (performs_freeTreasuryBalance _ (fun _ => h) h)
  intro balance
  split
  · trivial
  · exact of_recallShortfall _ _ _ _ h hd hr ha

end SettlementOS.Analysis
