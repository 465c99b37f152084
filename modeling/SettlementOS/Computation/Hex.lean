import Mathlib.Data.List.Basic
import Mathlib.Tactic.IntervalCases

/-!
# Bytes in hexadecimal

Two digits a byte, the higher half first. What is read back stops at the first pair that is no
byte; what was written is read back whole.
-/

set_option autoImplicit false

namespace SettlementOS.Computation.Hex

/-- The value of a hexadecimal digit, in either case. -/
def value (c : Char) : Option ℕ :=
  if '0' ≤ c ∧ c ≤ '9' then some (c.toNat - 48)
  else if 'a' ≤ c ∧ c ≤ 'f' then some (c.toNat - 87)
  else if 'A' ≤ c ∧ c ≤ 'F' then some (c.toNat - 55)
  else none

/-- The two digits of a byte. -/
def digits (b : UInt8) : List Char := [Nat.digitChar (b.toNat / 16), Nat.digitChar (b.toNat % 16)]

/-- Bytes, written out. -/
def encode (bytes : List UInt8) : List Char := bytes.flatMap digits

/-- The bytes at the front of a text. -/
def decode : List Char → List UInt8
  | c :: d :: rest =>
    match value c, value d with
    | some m, some n => UInt8.ofNat (16 * m + n) :: decode rest
    | _, _ => []
  | _ => []

/-- The text is bytes, and not empty. -/
def isHex (s : List Char) : Bool :=
  !s.isEmpty && s.length % 2 == 0 && s.all fun c => (value c).isSome

/-- The digit of a value has that value. -/
theorem value_digitChar {n : ℕ} (h : n < 16) : value (Nat.digitChar n) = some n := by
  interval_cases n <;> decide

/-- What was written is read back. -/
@[simp] theorem decode_encode (bytes : List UInt8) : decode (encode bytes) = bytes := by
  induction bytes with
  | nil => rfl
  | cons b bytes ih =>
    have hb := b.toNat_lt
    have hhigh : b.toNat / 16 < 16 := by omega
    have hlow : b.toNat % 16 < 16 := Nat.mod_lt _ (by decide)
    have hbyte : 16 * (b.toNat / 16) + b.toNat % 16 = b.toNat := Nat.div_add_mod _ _
    have hcons : encode (b :: bytes) = Nat.digitChar (b.toNat / 16) ::
        Nat.digitChar (b.toNat % 16) :: encode bytes := rfl
    rw [hcons, decode, value_digitChar hhigh, value_digitChar hlow]
    simp only [hbyte, ih, UInt8.ofNat_toNat]

/-- Two digits for each byte. -/
theorem length_encode (bytes : List UInt8) : (encode bytes).length = 2 * bytes.length := by
  induction bytes with
  | nil => rfl
  | cons b bytes ih =>
    have hcons : (encode (b :: bytes)).length = (encode bytes).length + 2 := rfl
    rw [hcons, ih, List.length_cons]
    omega

/-- What was written is bytes. -/
theorem isHex_encode {bytes : List UInt8} (h : bytes ≠ []) : isHex (encode bytes) = true := by
  have hnonempty : encode bytes ≠ [] := by
    intro hempty
    have hlength := length_encode bytes
    rw [hempty] at hlength
    exact h (List.length_eq_zero_iff.mp (by simpa using hlength.symm))
  have hall : (encode bytes).all (fun c => (value c).isSome) = true := by
    rw [List.all_eq_true]
    intro c hc
    obtain ⟨b, -, hc⟩ := List.mem_flatMap.mp hc
    have hb := b.toNat_lt
    rcases List.mem_cons.mp hc with rfl | hc
    · rw [value_digitChar (by omega)]
      rfl
    · rw [List.mem_singleton.mp hc, value_digitChar (Nat.mod_lt _ (by decide))]
      rfl
  unfold isHex
  rw [hall, length_encode, List.isEmpty_eq_false_iff.mpr hnonempty, Nat.mul_mod_right]
  rfl

end SettlementOS.Computation.Hex
