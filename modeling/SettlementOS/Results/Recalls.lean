import SettlementOS.Analysis.Recalls
import SettlementOS.Results.Accruals

/-!
# What a recall for a payment leaves free

A recall for a payment takes the free balance for zero where more is reserved than there is, and
asks the fund for the amount of the payment alone. What was missing before is still missing then,
unless the positions it takes happen to be worth as much more.
-/

set_option autoImplicit false

namespace SettlementOS.Results

open SettlementOS.Computation Model.Treasury Program.Treasury Analysis
open Model (AssetSymbol Err)
open SettlementOS.Contracts (Address)

variable {env : Env} {s : State} {symbol : AssetSymbol} {decimals : ℕ}
  {args : RecallForPaymentArgs} {needed reserved : ℕ}

/-- The balance without what is reserved of it. -/
def unreserved (env : Env) (symbol : AssetSymbol) (decimals : ℕ) (s : State) : Except Err ℤ :=
  (reservedUnits (s.reserved symbol) decimals).map fun reserved => balanceOf env s - reserved

/-- What is said of a recall for a payment: when it returns, as much as is needed is unreserved,
and the positions recalled are the first that cover the shortfall; where the positions do not cover
it, it throws before one is redeemed. -/
structure Frees (env : Env) (s : State) (symbol : AssetSymbol) (decimals : ℕ)
    (needed : ℕ) (shortfall : ℤ) (result : Except Err RecallForPaymentResult × State) : Prop where
  free : ∀ r, result.1 = .ok r →
    ∃ u, unreserved env symbol decimals result.2 = .ok u ∧ (needed : ℤ) ≤ u
  first : ∀ r, result.1 = .ok r → ∃ taken,
    CoversFirst (valueAt s.fund) shortfall taken (s.active symbol) ∧
      r.recalled.map RecallResult.positionId = taken.map Position.id
  refused : 0 < shortfall → worthAll (valueAt s.fund) (s.active symbol) < shortfall →
    (∃ e, result.1 = .error e) ∧ result.2.fund = s.fund ∧ result.2.positions = s.positions

/-- What is not reserved is the balance less the reservations. -/
theorem unreserved_eq {s' : State} (h : Recallable env s symbol decimals args needed reserved)
    (hsame : s'.reservations = s.reservations) :
    unreserved env symbol decimals s' = .ok (balanceOf env s' - reserved) := by
  have hreserved : s'.reserved symbol = s.reserved symbol := by
    rw [State.reserved, hsame]
    rfl
  rw [unreserved, hreserved, h.reservations]
  rfl

/-- What is needed is positive. -/
theorem needed_pos (h : Recallable env s symbol decimals args needed reserved) : 0 < needed := by
  have hparse := h.amount
  simp only [parsePositiveAssetUnits, bind_eq_ok] at hparse
  obtain ⟨units, -, hunits⟩ := hparse
  split at hunits
  · cases hunits
  · rename_i hpos
    obtain rfl := Except.ok.inj hunits
    exact Nat.pos_of_ne_zero hpos

/-- A recall that throws and changes nothing, of positions that do not cover the shortfall. -/
theorem frees_of_refused {shortfall : ℤ} {e : Err} :
    Frees env s symbol decimals needed shortfall (.error e, s) where
  free r hr := by cases hr
  first r hr := by cases hr
  refused _ _ := ⟨⟨e, rfl⟩, rfl, rfl⟩

/-- A recall that returns, with the first positions that cover the shortfall. -/
theorem frees_of_returned (h : Recallable env s symbol decimals args needed reserved) {s' : State}
    {result : RecallForPaymentResult} {shortfall : ℤ} {taken : List Position}
    (hsame : s'.reservations = s.reservations)
    (hfree : (needed : ℤ) ≤ balanceOf env s' - reserved)
    (hfirst : CoversFirst (valueAt s.fund) shortfall taken (s.active symbol))
    (hids : result.recalled.map RecallResult.positionId = taken.map Position.id)
    (hcovered : 0 < shortfall → shortfall ≤ worthAll (valueAt s.fund) (s.active symbol)) :
    Frees env s symbol decimals needed shortfall (.ok result, s') where
  free _ _ := ⟨_, unreserved_eq h hsame, hfree⟩
  first r hr := by
    obtain rfl := Except.ok.inj hr
    exact ⟨taken, hfirst, hids⟩
  refused hmissing hless := absurd (hcovered hmissing) (not_le.mpr hless)

/-- A recall for a payment does what is said of it exactly where no more is reserved than there is,
the positions are not worth what is needed, or the first that are cover the shortfall too, and with
the others still do. -/
theorem recall_frees_iff (h : Recallable env s symbol decimals args needed reserved) :
    Frees env s symbol decimals needed (needed + reserved - balanceOf env s)
        (undisturbed env (recallForPayment env args) s) ↔
      reserved ≤ balanceOf env s ∨ worthAll (valueAt s.fund) (s.active symbol) < needed ∨
        ((needed + reserved - balanceOf env s : ℤ) ≤
            worthAll (valueAt s.fund) (coveringPrefix (valueAt s.fund) needed (s.active symbol)) ∧
          (needed + reserved - balanceOf env s : ℤ) ≤
            worthAll (valueAt s.fund) (s.active symbol)) := by
  have hpos := needed_pos h
  rw [h.checks]
  by_cases henough : needed ≤ balanceOf env s - reserved
  · rw [if_pos henough]
    have hnothing : CoversFirst (valueAt s.fund) (needed + reserved - balanceOf env s) []
        (s.active symbol) := by
      refine ⟨List.nil_prefix, by rw [worthAll_nil]; omega, fun shorter hp hne => ?_⟩
      exact absurd (List.prefix_nil.mp hp) hne
    refine iff_of_true (frees_of_returned h rfl (by omega) hnothing rfl fun hmissing => ?_)
      (.inl (by omega))
    omega
  · rw [if_neg henough]
    by_cases hshort : worthAll (valueAt s.fund) (s.active symbol) <
        (needed : ℤ) - (balanceOf env s - reserved : ℕ)
    · obtain ⟨e, he⟩ := h.refused hshort
      rw [he]
      refine iff_of_true frees_of_refused ?_
      by_cases hle : reserved ≤ balanceOf env s
      · exact .inl hle
      · exact .inr (.inl (by omega))
    · have hparked := not_lt.mp hshort
      obtain ⟨result, s', hrun, hids, hsame, hbalance⟩ := h.recalled rfl hparked
      rw [hrun]
      by_cases hle : reserved ≤ balanceOf env s
      · -- the shortfall is what the code takes for it
        have hmissing : (needed : ℤ) - (balanceOf env s - reserved : ℕ) =
            needed + reserved - balanceOf env s := by omega
        rw [hmissing] at hparked hids hbalance
        have hcover := le_worthAll_coveringPrefix hparked
        exact iff_of_true (frees_of_returned h hsame (by omega)
          (coversFirst_coveringPrefix hparked) hids fun _ => hparked) (.inl hle)
      · have hnone : (needed : ℤ) - (balanceOf env s - reserved : ℕ) = needed := by omega
        rw [hnone] at hparked hids hbalance
        constructor
        · intro hfrees
          obtain ⟨u, hu, hneeded⟩ := hfrees.free result rfl
          rw [unreserved_eq h hsame] at hu
          have heq : (balanceOf env s' : ℤ) - reserved = u := Except.ok.inj hu
          refine .inr (.inr ⟨by omega, ?_⟩)
          by_contra hless
          obtain ⟨⟨e, he⟩, -⟩ := hfrees.refused (by omega) (not_le.mp hless)
          cases he
        · rintro (hle' | hless | ⟨hcover, hall⟩)
          · exact absurd hle' hle
          · omega
          · have hfirst := coversFirst_coveringPrefix hparked
            exact frees_of_returned h hsame (by omega) (hfirst.greater (by omega) hcover) hids
              fun _ => hall

/-! ## Fifty parked -/

/-- The fund at par, with fifty million shares of the treasury and what they are worth. -/
def parkedFund : Contracts.Fund.World where
  storage :=
    { admin := .ofNat 2
      currentIndex := Contracts.Fund.INDEX_SCALE
      totalShares := 50000000
      operators := Function.update (fun _ => false) (.ofNat 2) true
      sharesOf := Function.update (fun _ => 0) (.ofNat 3) 50000000 }
  asset :=
    { totalSupply := 50000000
      balanceOf := Function.update (fun _ => 0) (.ofNat 1) 50000000
      allowance := fun _ _ => 0 }

/-- The position of fifty that was bought with it. -/
def parkedFifty : Position where
  asset := .mockUSDC
  shares := 50000000
  assetAmountIn := 50000000
  indexAtEntry := 10 ^ 18
  txHashPark := 0
  id := 0

/-- Fifty parked, nothing on hand, and these reservations. -/
def fiftyParked (reservations : List Reserved) : State :=
  { freshFund with positions := [parkedFifty], reservations := reservations, fund := parkedFund }

/-- Twenty for a payment. -/
def forTwenty : RecallForPaymentArgs := ⟨"mockUSDC", "20", "payment"⟩

/-- The fund pays for the position. -/
theorem paysAll_parkedFifty : PaysAll fundedNetwork parkedFund [parkedFifty] := by
  have hpaid : (Contracts.Fund.redeem (.ofNat 1) parkedFund (.ofNat 2) (.ofNat 3)
      50000000).isOk = true := by decide +kernel
  cases h : Contracts.Fund.redeem (.ofNat 1) parkedFund (.ofNat 2) (.ofNat 3) 50000000 with
  | error e =>
    rw [h] at hpaid
    cases hpaid
  | ok r =>
    obtain ⟨w', paid, logs⟩ := r
    exact ⟨w', paid, ⟨50000000, logs, rfl, h⟩, trivial⟩

/-- The sample fund can be recalled for twenty. -/
theorem recallable_forTwenty {reservations : List Reserved} {reserved : ℕ}
    (h : reservedUnits ((fiftyParked reservations).reserved .mockUSDC) 6 = .ok reserved) :
    Recallable fundedNetwork (fiftyParked reservations) .mockUSDC 6 forTwenty 20000000
      reserved where
  deployed := ⟨rfl, rfl, by decide⟩
  asset := rfl
  amount := by decide +kernel
  reservations := h
  distinct := List.nodup_singleton _
  pays _ := by
    have hempty : balanceOf fundedNetwork (fiftyParked reservations) = 0 := rfl
    have hactive : (fiftyParked reservations).active .mockUSDC = [parkedFifty] := rfl
    rw [hempty, hactive, Nat.zero_sub, coveringPrefix_cons (by decide)]
    exact paysAll_parkedFifty

/-- Nothing is reserved: the fifty are recalled, and twenty of them are free. -/
theorem recall_frees_forTwenty : Frees fundedNetwork (fiftyParked []) .mockUSDC 6 20000000 20000000
    (undisturbed fundedNetwork (recallForPayment fundedNetwork forTwenty) (fiftyParked [])) := by
  have hrecallable : Recallable fundedNetwork (fiftyParked []) .mockUSDC 6 forTwenty 20000000 0 :=
    recallable_forTwenty rfl
  exact (recall_frees_iff hrecallable).mpr (.inl (Nat.zero_le _))

/-- A hundred of the asset are reserved. -/
def hundredReserved : List Reserved := [⟨.mockUSDC, "100", .reserved⟩]

/-- The fifty are recalled then all the same, and nothing is free. -/
theorem recall_leaves_nothing_free :
    ¬ ∀ (env : Env) (s : State) (symbol : AssetSymbol) (decimals : ℕ) (args : RecallForPaymentArgs)
        (needed reserved : ℕ), Recallable env s symbol decimals args needed reserved →
      Frees env s symbol decimals needed (needed + reserved - balanceOf env s)
        (undisturbed env (recallForPayment env args) s) := by
  intro h
  have hreserved : reservedUnits ((fiftyParked hundredReserved).reserved .mockUSDC) 6 =
      .ok 100000000 := by decide +kernel
  have hrun : ((undisturbed fundedNetwork (recallForPayment fundedNetwork forTwenty)
      (fiftyParked hundredReserved)).1.isOk &&
      (unreserved fundedNetwork .mockUSDC 6 (undisturbed fundedNetwork
        (recallForPayment fundedNetwork forTwenty) (fiftyParked hundredReserved)).2).toOption ==
        some (-50000000)) = true := by decide +kernel
  have hfree := (h _ _ _ _ _ _ _ (recallable_forTwenty hreserved)).free
  generalize undisturbed fundedNetwork (recallForPayment fundedNetwork forTwenty)
    (fiftyParked hundredReserved) = result at hrun hfree
  obtain ⟨outcome, s'⟩ := result
  rw [Bool.and_eq_true, beq_iff_eq] at hrun
  cases outcome with
  | error e => exact absurd hrun.1 Bool.false_ne_true
  | ok r =>
    obtain ⟨u, hu, hneeded⟩ := hfree r rfl
    rw [hu] at hrun
    have heq : u = -50000000 := Option.some.inj hrun.2
    omega

end SettlementOS.Results
