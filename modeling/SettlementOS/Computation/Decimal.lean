import Mathlib.Data.List.TakeWhile
import Mathlib.Data.Rat.Cast.CharZero
import Mathlib.Tactic.FieldSimp
import Mathlib.Tactic.Ring

/-!
# Decimals

A decimal is a list of digits before the point and one behind it, and writes a rational number.
At a scale that has room for the digits behind the point it is a natural number, and every
natural number is a decimal with as many digits behind the point as one wants.
-/

set_option autoImplicit false

namespace SettlementOS.Computation

/-- Digits, with a point in between when there are any behind it. -/
structure Decimal where
  whole : List Char
  frac : List Char
  /-- there are digits on both sides -/
  digits : ∀ c ∈ whole ++ frac, c.isDigit = true
  nonempty : whole ≠ []

namespace Decimal

variable {x y : Decimal} {d n : ℕ}

/-- How the decimal is written. -/
def chars (x : Decimal) : List Char :=
  if x.frac.isEmpty then x.whole else x.whole ++ '.' :: x.frac

/-- All the digits, as a number. -/
def numeral (x : Decimal) : ℕ := Nat.ofDigitChars 10 (x.whole ++ x.frac) 0

/-- The number that is written. -/
def value (x : Decimal) : ℚ := x.numeral / 10 ^ x.frac.length

/-- The number at a scale of `d` decimals. -/
def scaled (x : Decimal) (d : ℕ) : ℕ :=
  Nat.ofDigitChars 10 x.whole 0 * 10 ^ d +
    Nat.ofDigitChars 10 (x.frac ++ List.replicate (d - x.frac.length) '0') 0

/-! ## What is written -/

/-- A digit is not the point. -/
theorem ne_point {c : Char} (h : c.isDigit = true) : c ≠ '.' := by
  rintro rfl
  cases h

/-- None of the digits before the point is the point. -/
theorem whole_ne_point (x : Decimal) : ∀ c ∈ x.whole, decide (c ≠ '.') = true := fun c hc =>
  decide_eq_true (ne_point (x.digits c (List.mem_append_left _ hc)))

/-- Nor is any behind it. -/
theorem frac_ne_point (x : Decimal) : ∀ c ∈ x.frac, decide (c ≠ '.') = true := fun c hc =>
  decide_eq_true (ne_point (x.digits c (List.mem_append_right _ hc)))

/-- Without digits behind the point no point is written. -/
theorem chars_of_nil (h : x.frac = []) : x.chars = x.whole := by
  rw [chars, h, if_pos List.isEmpty_nil]

/-- With digits behind it the point is written. -/
theorem chars_of_ne_nil (h : x.frac ≠ []) : x.chars = x.whole ++ '.' :: x.frac :=
  if_neg (by simpa using h)

/-- What stands before the point. -/
theorem takeWhile_chars (x : Decimal) :
    x.chars.takeWhile (fun c => decide (c ≠ '.')) = x.whole := by
  unfold chars
  by_cases hfrac : x.frac.isEmpty
  · rw [if_pos hfrac]
    exact List.takeWhile_eq_self_iff.mpr x.whole_ne_point
  · rw [if_neg hfrac, List.takeWhile_append_of_pos x.whole_ne_point,
      List.takeWhile_cons_of_neg (by simp), List.append_nil]

/-- What stands behind it. -/
theorem drop_dropWhile_chars (x : Decimal) :
    (x.chars.dropWhile (fun c => decide (c ≠ '.'))).drop 1 = x.frac := by
  unfold chars
  by_cases hfrac : x.frac.isEmpty
  · rw [if_pos hfrac, List.dropWhile_eq_nil_iff.mpr x.whole_ne_point, List.drop_nil,
      List.isEmpty_iff.mp hfrac]
  · rw [if_neg hfrac, List.dropWhile_append_of_pos x.whole_ne_point,
      List.dropWhile_cons_of_neg (by simp), List.drop_succ_cons, List.drop_zero]

/-- A decimal is what is written. -/
theorem ext_chars (h : x.chars = y.chars) : x = y := by
  have hwhole : x.whole = y.whole := by rw [← x.takeWhile_chars, h, y.takeWhile_chars]
  have hfrac : x.frac = y.frac := by rw [← x.drop_dropWhile_chars, h, y.drop_dropWhile_chars]
  cases x
  cases y
  cases hwhole
  cases hfrac
  rfl

/-! ## Scales -/

/-- Where the scale has room, nothing is rounded. -/
theorem scaled_mul_pow (h : x.frac.length ≤ d) :
    x.scaled d * 10 ^ x.frac.length = x.numeral * 10 ^ d := by
  have hpow : 10 ^ d = 10 ^ (d - x.frac.length) * 10 ^ x.frac.length := by
    rw [← Nat.pow_add, Nat.sub_add_cancel h]
  have hdigits : Nat.ofDigitChars 10 x.frac (Nat.ofDigitChars 10 x.whole 0) = _ :=
    Nat.ofDigitChars_eq_ofDigitChars_zero
  unfold scaled numeral
  rw [Nat.ofDigitChars_append, Nat.ofDigitChars_append, Nat.ofDigitChars_replicate_zero, hdigits,
    hpow]
  ring

/-- Where the scale has room, the scaled number is the value in units of the scale. -/
theorem scaled_eq (h : x.frac.length ≤ d) : (x.scaled d : ℚ) = x.value * 10 ^ d := by
  have hscaled : (x.scaled d : ℚ) * 10 ^ x.frac.length = x.numeral * 10 ^ d := by
    exact_mod_cast scaled_mul_pow h
  unfold value
  field_simp
  exact hscaled

/-- Digits write a number of as many digits. -/
theorem ofDigitChars_lt {l : List Char} (h : ∀ c ∈ l, c.isDigit = true) :
    Nat.ofDigitChars 10 l 0 < 10 ^ l.length := by
  induction l with
  | nil => decide
  | cons c l ih =>
    have htail := ih fun c' hc' => h c' (List.mem_cons_of_mem _ hc')
    have hdigit : c.toNat - '0'.toNat ≤ 9 := by
      have hc := h c List.mem_cons_self
      simp only [Char.isDigit, Bool.and_eq_true, decide_eq_true_eq] at hc
      have hle : c.toNat ≤ 57 := hc.2
      have hzero : '0'.toNat = 48 := rfl
      omega
    rw [Nat.ofDigitChars_cons, Nat.ofDigitChars_eq_ofDigitChars_zero, Nat.mul_zero, Nat.zero_add,
      List.length_cons, Nat.pow_succ]
    calc 10 ^ l.length * (c.toNat - '0'.toNat) + Nat.ofDigitChars 10 l 0
        < 10 ^ l.length * (c.toNat - '0'.toNat) + 10 ^ l.length := Nat.add_lt_add_left htail _
      _ = 10 ^ l.length * (c.toNat - '0'.toNat + 1) := (Nat.mul_succ _ _).symm
      _ ≤ 10 ^ l.length * 10 := Nat.mul_le_mul_left _ (by omega)

/-- The digits before the point bound the number. -/
theorem scaled_lt {k : ℕ} (hwhole : x.whole.length ≤ k) (h : x.frac.length ≤ d) :
    x.scaled d < 10 ^ (k + d) := by
  have hnumeral : x.numeral < 10 ^ (x.whole.length + x.frac.length) := by
    rw [← List.length_append]
    exact ofDigitChars_lt x.digits
  have hk : 10 ^ x.whole.length ≤ 10 ^ k := Nat.pow_le_pow_right (by decide) hwhole
  have hpos : 0 < 10 ^ x.frac.length := Nat.pow_pos (by decide)
  refine Nat.lt_of_mul_lt_mul_right (a := 10 ^ x.frac.length) ?_
  calc x.scaled d * 10 ^ x.frac.length = x.numeral * 10 ^ d := scaled_mul_pow h
    _ < 10 ^ (x.whole.length + x.frac.length) * 10 ^ d :=
      Nat.mul_lt_mul_of_pos_right hnumeral (Nat.pow_pos (by decide))
    _ = 10 ^ x.whole.length * (10 ^ d * 10 ^ x.frac.length) := by
      rw [Nat.pow_add]
      ring
    _ ≤ 10 ^ k * (10 ^ d * 10 ^ x.frac.length) := Nat.mul_le_mul_right _ hk
    _ = 10 ^ (k + d) * 10 ^ x.frac.length := by
      rw [Nat.pow_add]
      ring

/-- A finer scale counts in finer units. -/
theorem scaled_add (h : x.frac.length ≤ d) (k : ℕ) : x.scaled (d + k) = x.scaled d * 10 ^ k := by
  have hfine : (x.scaled (d + k) : ℚ) = (x.scaled d * 10 ^ k : ℕ) := by
    rw [scaled_eq (Nat.le_trans h (Nat.le_add_right d k))]
    push_cast
    rw [scaled_eq h]
    ring
  exact_mod_cast hfine

/-! ## Numbers as decimals -/

/-- The digits of a number, at least one more of them than go behind the point. -/
def padded (n d : ℕ) : List Char :=
  List.replicate (d + 1 - (Nat.toDigits 10 n).length) '0' ++ Nat.toDigits 10 n

/-- As many digits as the number has, and one more than go behind the point at least. -/
theorem length_padded (n d : ℕ) :
    (padded n d).length = max (d + 1) (Nat.toDigits 10 n).length := by
  unfold padded
  rw [List.length_append, List.length_replicate]
  omega

/-- They are digits. -/
theorem isDigit_of_mem_padded {c : Char} (h : c ∈ padded n d) : c.isDigit = true := by
  rcases List.mem_append.mp h with h | h
  · rw [List.eq_of_mem_replicate h]
    rfl
  · exact Nat.isDigit_of_mem_toDigits (by decide) (by decide) h

/-- They write the number. -/
theorem ofDigitChars_padded (n d : ℕ) : Nat.ofDigitChars 10 (padded n d) 0 = n := by
  unfold padded
  rw [Nat.ofDigitChars_append, Nat.ofDigitChars_replicate_zero, Nat.mul_zero,
    Nat.ofDigitChars_ten_toDigits]

/-- A number at a scale of `d` decimals, with all the digits behind the point. -/
def fixed (n d : ℕ) : Decimal where
  whole := (padded n d).take ((padded n d).length - d)
  frac := (padded n d).drop ((padded n d).length - d)
  digits c hc := by
    rw [List.take_append_drop] at hc
    exact isDigit_of_mem_padded hc
  nonempty h := by
    have hlen := congrArg List.length h
    have hpadded := length_padded n d
    rw [List.length_take, List.length_nil] at hlen
    omega

/-- As many digits stand behind the point as the scale has. -/
theorem length_frac_fixed (n d : ℕ) : (fixed n d).frac.length = d := by
  have hpadded := length_padded n d
  simp only [fixed, List.length_drop]
  omega

/-- How many digits stand before the point. -/
theorem length_whole_fixed_le_iff {k : ℕ} (hk : 0 < k) :
    (fixed n d).whole.length ≤ k ↔ n < 10 ^ (k + d) := by
  have hdigits := Nat.length_toDigits_le_iff (n := n) (b := 10) (by decide) (Nat.add_pos_left hk d)
  have hpadded := length_padded n d
  rw [← hdigits]
  simp only [fixed, List.length_take]
  omega

/-- With a scale there are digits behind the point. -/
theorem frac_fixed_ne_nil (h : d ≠ 0) : (fixed n d).frac ≠ [] := by
  intro hnil
  have hlen := length_frac_fixed n d
  rw [hnil] at hlen
  exact h hlen.symm

/-- Without decimals a number is its digits. -/
theorem chars_fixed_zero (n : ℕ) : (fixed n 0).chars = Nat.toDigits 10 n := by
  have hpos := Nat.length_toDigits_pos (b := 10) (n := n)
  have hfrac : (fixed n 0).frac = [] := List.eq_nil_of_length_eq_zero (length_frac_fixed n 0)
  rw [chars_of_nil hfrac]
  show (padded n 0).take ((padded n 0).length - 0) = Nat.toDigits 10 n
  rw [Nat.sub_zero, List.take_length, padded, Nat.sub_eq_zero_of_le hpos, List.replicate_zero,
    List.nil_append]

/-- Its digits are those of the number. -/
theorem numeral_fixed (n d : ℕ) : (fixed n d).numeral = n := by
  unfold numeral fixed
  rw [List.take_append_drop, ofDigitChars_padded]

/-- At its own scale it is the number. -/
theorem scaled_fixed (n d : ℕ) : (fixed n d).scaled d = n := by
  have hlen := length_frac_fixed n d
  have hscaled := scaled_mul_pow (x := fixed n d) (d := d) (Nat.le_of_eq hlen)
  rw [hlen, numeral_fixed] at hscaled
  exact Nat.eq_of_mul_eq_mul_right (Nat.pow_pos (by decide)) hscaled

/-! ## Without the last zeros -/

/-- The zeros at the end are dropped, and the point too when nothing is left behind it. -/
def short (x : Decimal) : Decimal where
  whole := x.whole
  frac := (x.frac.reverse.dropWhile (· = '0')).reverse
  digits c hc := by
    rcases List.mem_append.mp hc with hc | hc
    · exact x.digits c (List.mem_append_left _ hc)
    · have hmem := (List.dropWhile_suffix _).subset (List.mem_reverse.mp hc)
      exact x.digits c (List.mem_append_right _ (List.mem_reverse.mp hmem))
  nonempty := x.nonempty

/-- What is dropped are zeros. -/
theorem frac_eq_short (x : Decimal) :
    ∃ k, x.frac = x.short.frac ++ List.replicate k '0' := by
  have hsplit : x.frac = x.short.frac ++ (x.frac.reverse.takeWhile (· = '0')).reverse := by
    unfold short
    rw [← List.reverse_append, List.takeWhile_append_dropWhile, List.reverse_reverse]
  have hzeros : ∀ c ∈ (x.frac.reverse.takeWhile (· = '0')).reverse, c = '0' := by
    intro c hc
    simpa using List.mem_takeWhile_imp (List.mem_reverse.mp hc)
  rw [List.eq_replicate_of_mem hzeros] at hsplit
  exact ⟨_, hsplit⟩

/-- Nothing is lost with them. -/
theorem scaled_short (h : x.frac.length ≤ d) : x.short.scaled d = x.scaled d := by
  obtain ⟨k, hfrac⟩ := frac_eq_short x
  have hlen : x.frac.length = x.short.frac.length + k := by
    rw [hfrac, List.length_append, List.length_replicate]
  have hzeros : d - x.short.frac.length = k + (d - x.frac.length) := by omega
  have hwhole : x.short.whole = x.whole := rfl
  unfold scaled
  rw [hwhole, hzeros, List.replicate_add, ← List.append_assoc, ← hfrac]

/-- Where there is nothing behind the point nothing is dropped. -/
theorem short_of_nil (h : x.frac = []) : x.short = x := by
  apply ext_chars
  have hshort : x.short.frac = [] := by
    show (x.frac.reverse.dropWhile (· = '0')).reverse = []
    rw [h]
    rfl
  rw [chars_of_nil h, chars_of_nil hshort]
  rfl

/-- Shortening a decimal leaves no more digits behind the point. -/
theorem length_frac_short_le (x : Decimal) : x.short.frac.length ≤ x.frac.length := by
  obtain ⟨k, hfrac⟩ := frac_eq_short x
  rw [hfrac, List.length_append]
  exact Nat.le_add_right _ _

end Decimal

end SettlementOS.Computation
