import Mathlib.Algebra.Order.Floor.Ring
import Mathlib.Data.Rat.Floor
import Mathlib.Tactic.FieldSimp
import Mathlib.Tactic.LinearCombination
import Mathlib.Tactic.Positivity
import SettlementOS.Analysis.Conversions

/-!
# What the roundings of a quote do

A conversion rounds three times: the fee, the effective rate, and the amount. The second and the
third take from the recipient. The first takes from the platform: a fee that is rounded down
leaves the fraction it drops with the amount.
-/

set_option autoImplicit false

namespace SettlementOS.Analysis

open SettlementOS.Model

/-- A floor that was moved up by `δ` is no more than where it started, as long as `δ` does not
carry over the next whole number. -/
theorem floor_add_le_iff (x δ : ℚ) : (⌊x + δ⌋ : ℚ) ≤ x ↔ Int.fract x + δ < 1 := by
  have hx := Int.floor_add_fract x
  calc (⌊x + δ⌋ : ℚ) ≤ x ↔ ⌊x + δ⌋ ≤ ⌊x⌋ := Int.le_floor.symm
    _ ↔ ⌊x + δ⌋ < ⌊x⌋ + 1 := Int.lt_add_one_iff.symm
    _ ↔ x + δ < ((⌊x⌋ + 1 : ℤ) : ℚ) := Int.floor_lt
    _ ↔ Int.fract x + δ < 1 := by
      rw [Int.cast_add, Int.cast_one]
      constructor <;> intro h <;> linarith

/-- How many minor units of the destination go into one of the source, at a rate of one. -/
def minorScale (sourceDecimals destDecimals : ℕ) : ℚ := 10 ^ destDecimals / 10 ^ sourceDecimals

/-- What fee and spread leave of an amount, with nothing rounded. -/
def exactValue (amountMinor mid bps sourceDecimals destDecimals : ℕ) : ℚ :=
  amountMinor * (1 - platformFeeBps / bpsScale) * (mid / rateScale) * (1 - bps / bpsScale) *
    minorScale sourceDecimals destDecimals

/-- The fraction of a source unit that the rounded fee drops, converted. -/
def feeDropped (amountMinor mid bps sourceDecimals destDecimals : ℕ) : ℚ :=
  ((amountMinor * platformFeeBps % bpsScale : ℕ) : ℚ) / bpsScale * (mid / rateScale) *
    (1 - bps / bpsScale) * minorScale sourceDecimals destDecimals

/-- What the rounded rate drops of the amount after the fee. -/
def rateDropped (amountMinor mid bps sourceDecimals destDecimals : ℕ) : ℚ :=
  ((amountMinor - amountMinor * platformFeeBps / bpsScale : ℕ) : ℚ) *
    (((mid * (bpsScale - bps) % bpsScale : ℕ) : ℚ) / bpsScale / rateScale) *
      minorScale sourceDecimals destDecimals

variable {amountMinor mid bps sourceDecimals destDecimals : ℕ}

/-- The three roundings, as one. -/
theorem converted_eq_floor (hbps : bps ≤ bpsScale) :
    (converted amountMinor mid bps sourceDecimals destDecimals : ℤ) =
      ⌊exactValue amountMinor mid bps sourceDecimals destDecimals +
        (feeDropped amountMinor mid bps sourceDecimals destDecimals -
          rateDropped amountMinor mid bps sourceDecimals destDecimals)⌋ := by
  have hfee : (bpsScale : ℚ) * (amountMinor * platformFeeBps / bpsScale : ℕ) +
      (amountMinor * platformFeeBps % bpsScale : ℕ) = amountMinor * platformFeeBps := by
    exact_mod_cast Nat.div_add_mod (amountMinor * platformFeeBps) bpsScale
  have hrate : (bpsScale : ℚ) * (mid * (bpsScale - bps) / bpsScale : ℕ) +
      (mid * (bpsScale - bps) % bpsScale : ℕ) = mid * (bpsScale - bps) := by
    rw [← Nat.cast_sub hbps]
    exact_mod_cast Nat.div_add_mod (mid * (bpsScale - bps)) bpsScale
  have hle : amountMinor * platformFeeBps / bpsScale ≤ amountMinor := by
    unfold platformFeeBps bpsScale
    omega
  have hpos : (bpsScale : ℚ) ≠ 0 := by norm_num [bpsScale]
  have hscale : (rateScale : ℚ) ≠ 0 := by norm_num [rateScale]
  unfold converted applyBps
  rw [Int.natCast_div, ← Rat.floor_natCast_div_natCast]
  apply congrArg
  unfold exactValue feeDropped rateDropped minorScale
  push_cast [Nat.cast_sub hle]
  generalize ((amountMinor * platformFeeBps / bpsScale : ℕ) : ℚ) = fee at *
  generalize ((amountMinor * platformFeeBps % bpsScale : ℕ) : ℚ) = dropped at *
  generalize ((mid * (bpsScale - bps) / bpsScale : ℕ) : ℚ) = rate at *
  generalize ((mid * (bpsScale - bps) % bpsScale : ℕ) : ℚ) = lost at *
  rw [← eq_sub_iff_add_eq'] at hfee hrate
  rw [hfee, hrate]
  field_simp
  ring

/-- What the rounded fee leaves with the amount, less what the rounded rate takes from it, carries
the exact value over the next whole unit. -/
def CarriesOver (amountMinor mid bps sourceDecimals destDecimals : ℕ) : Prop :=
  1 ≤ Int.fract (exactValue amountMinor mid bps sourceDecimals destDecimals) +
    (feeDropped amountMinor mid bps sourceDecimals destDecimals -
      rateDropped amountMinor mid bps sourceDecimals destDecimals)

/-- Nothing beyond the exact value is promised, as long as nothing carries. -/
theorem converted_le_exact_iff (hbps : bps ≤ bpsScale) :
    (converted amountMinor mid bps sourceDecimals destDecimals : ℚ) ≤
        exactValue amountMinor mid bps sourceDecimals destDecimals ↔
      ¬CarriesOver amountMinor mid bps sourceDecimals destDecimals := by
  have hfloor : (converted amountMinor mid bps sourceDecimals destDecimals : ℤ) = _ :=
    converted_eq_floor hbps
  have hcast : (converted amountMinor mid bps sourceDecimals destDecimals : ℚ) =
      ((converted amountMinor mid bps sourceDecimals destDecimals : ℤ) : ℚ) := by norm_cast
  rw [hcast, hfloor, floor_add_le_iff]
  exact not_le.symm

/-- An amount whose fee is a whole number of units carries nothing. -/
theorem not_carriesOver_of_whole_fee (hwhole : amountMinor * platformFeeBps % bpsScale = 0) :
    ¬CarriesOver amountMinor mid bps sourceDecimals destDecimals := by
  have hfee : feeDropped amountMinor mid bps sourceDecimals destDecimals = 0 := by
    unfold feeDropped
    rw [hwhole]
    simp
  have hrate : 0 ≤ rateDropped amountMinor mid bps sourceDecimals destDecimals := by
    unfold rateDropped minorScale
    positivity
  have hfract := Int.fract_lt_one (exactValue amountMinor mid bps sourceDecimals destDecimals)
  unfold CarriesOver
  rw [hfee]
  linarith

end SettlementOS.Analysis
