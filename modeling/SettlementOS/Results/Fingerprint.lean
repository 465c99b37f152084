import SettlementOS.Analysis.Fingerprint

/-!
# What a fingerprint is taken of

Two bodies have the same canonical text exactly when they are the same up to the order of the keys
of their objects.
-/

set_option autoImplicit false

namespace SettlementOS.Results

open SettlementOS.Computation Model.Fingerprint Analysis

/-- For all JSON values, the canonical texts are the same if and only if the values are, up to the
order of keys at every depth. -/
theorem canonical_eq_iff {ν : Type} {textOf : ν → JsString} (hnum : Numerals textOf)
    (a b : Json ν) :
    canonical textOf a.value = canonical textOf b.value ↔ SameJson a.value b.value := by
  constructor
  · intro htext
    have hread := readBack_canonical hnum a.isJson b.isJson [] [] stopped_nil stopped_nil
    rw [List.append_nil, List.append_nil] at hread
    exact (hread htext).1
  · intro hsame
    exact canonical_of_same hsame a.isJson b.isJson

/-! ## A body with its keys in another order -/

/-- A whole number in decimal digits. -/
def digits (n : ℕ) : JsString := (Nat.toDigits 10 n).map unit

/-- A digit is a unit of numerals, and tells itself. -/
theorem unit_digit {c : Char} (h : c.isDigit = true) :
    Char.ofNat (unit c).val = c ∧ unit c ∈ numeralUnits := by
  obtain ⟨hlo, hhi⟩ := Char.isDigit_iff_toNat.mp h
  have hlo : 48 ≤ c.toNat := hlo
  have hhi : c.toNat ≤ 57 := hhi
  have hval : (unit c).val = c.toNat := Nat.mod_eq_of_lt (by omega)
  constructor
  · rw [hval, Char.ofNat_toNat]
  · rw [show unit c = Fin.ofNat (2 ^ 16) c.toNat from rfl]
    have hcases : c.toNat = 48 ∨ c.toNat = 49 ∨ c.toNat = 50 ∨ c.toNat = 51 ∨ c.toNat = 52 ∨
        c.toNat = 53 ∨ c.toNat = 54 ∨ c.toNat = 55 ∨ c.toNat = 56 ∨ c.toNat = 57 := by omega
    rcases hcases with h | h | h | h | h | h | h | h | h | h <;> rw [h] <;> decide

/-- The text of a number is made of digits. -/
theorem digit_of_mem {n : ℕ} {c : Char} (h : c ∈ Nat.toDigits 10 n) : c.isDigit = true :=
  Nat.isDigit_of_mem_toDigits (by decide) (by decide) h

/-- Decimal digits are numerals. -/
theorem digits_numerals : Numerals digits where
  injective := by
    intro n m h
    have hback : ∀ k : ℕ, (digits k).map (fun u => Char.ofNat u.val) = Nat.toDigits 10 k := by
      intro k
      rw [digits, List.map_map]
      exact (List.map_congr_left fun c hc => (unit_digit (digit_of_mem hc)).1).trans (List.map_id _)
    have hdigits : Nat.toDigits 10 n = Nat.toDigits 10 m := by
      rw [← hback n, ← hback m, h]
    have hvalue : ∀ k : ℕ, Nat.ofDigitChars 10 (Nat.toDigits 10 k) 0 = k := fun k =>
      Nat.ofDigitChars_ten_toDigits
    rw [← hvalue n, hdigits, hvalue m]
  nonempty n := by
    intro hnil
    exact Nat.toDigits_ne_nil (List.map_eq_nil_iff.mp hnil)
  numeral n := by
    intro u hu
    obtain ⟨c, hc, rfl⟩ := List.mem_map.mp hu
    exact (unit_digit (digit_of_mem hc)).2

/-- A body with an object in it. -/
def sent : Json ℕ where
  value := .object [(ascii "to", .object [(ascii "id", .number 2), (ascii "ref", .array [])]),
    (ascii "memo", .null)]
  isJson := by
    simp only [IsJson, EntriesJson, AllJson]
    decide

/-- The body with its keys in another order, inside and outside. -/
def resent : Json ℕ where
  value := .object [(ascii "memo", .null),
    (ascii "to", .object [(ascii "ref", .array []), (ascii "id", .number 2)])]
  isJson := by
    simp only [IsJson, EntriesJson, AllJson]
    decide

/-- Two numbers, one after the other. -/
def listed (n m : ℕ) : Json ℕ where
  value := .array [.number n, .number m]
  isJson := by simp [IsJson, AllJson]

/-- The order of keys does not count, and that of items does. -/
theorem canonical_resent : canonical digits sent.value = canonical digits resent.value ∧
    canonical digits (listed 1 2).value ≠ canonical digits (listed 2 1).value := by
  constructor
  · refine (canonical_eq_iff digits_numerals sent resent).mpr ?_
    have hinner : SameJson (.object [(ascii "id", .number 2), (ascii "ref", .array [])])
        (.object [(ascii "ref", .array []), (ascii "id", .number 2)] : Value ℕ) := by
      simp only [SameJson]
      refine ⟨[(ascii "id", .number 2), (ascii "ref", .array [])], ?_, .swap _ _ _⟩
      simp [SameEntries, SameJson, SameItems]
    simp only [sent, resent, SameJson]
    refine ⟨[(ascii "to", .object [(ascii "ref", .array []), (ascii "id", .number 2)]),
      (ascii "memo", .null)], ?_, .swap _ _ _⟩
    simp only [SameEntries, SameJson, and_true, true_and]
    simpa only [SameJson] using hinner
  · intro htext
    have hsame := (canonical_eq_iff digits_numerals (listed 1 2) (listed 2 1)).mp htext
    simp [listed, SameJson, SameItems] at hsame

end SettlementOS.Results
