import Mathlib.Algebra.BigOperators.Group.Finset.Basic
import Mathlib.Algebra.Order.BigOperators.Group.Finset
import Mathlib.Algebra.Ring.Nat
import Mathlib.Data.Fintype.BigOperators

/-!
# Contract calls

A call on a contract either reverts, leaving nothing behind, or moves the whole world
on and emits logs. `Machine` is a set of contracts seen that way and `Ledger` what a
chain keeps of it: the world and one receipt for every call, reverted ones included.
`Ledger.run_induct` is the one induction over calls that every invariant uses.

`Uint256` is the word of such contracts with its checked arithmetic, and `sum_update`
says how a sum over a whole mapping moves when one entry is written.
-/

set_option autoImplicit false

namespace SettlementOS.Computation

/-- Why a call reverts. -/
inductive Revert where
  /-- a failed requirement, with its reason -/
  | reason (text : String)
  /-- checked arithmetic went out of range -/
  | panic
  /-- the called address answers nothing -/
  | noContract
deriving DecidableEq, Repr

/-- `require(p, text)` -/
def require (p : Prop) [Decidable p] (text : String) : Except Revert Unit :=
  if p then .ok () else .error (.reason text)

/-- A requirement goes through if it is met. -/
@[simp] theorem require_eq_ok {p : Prop} [Decidable p] {text : String} {u : Unit} :
    require p text = .ok u ↔ p := by
  unfold require
  split <;> simp_all

/-- A sequence is done when both its parts are. -/
theorem bind_eq_ok {ε α β : Type} {x : Except ε α} {f : α → Except ε β} {b : β} :
    (x >>= f) = .ok b ↔ ∃ a, x = .ok a ∧ f a = .ok b := by
  cases x with
  | ok a =>
    show f a = .ok b ↔ _
    simp
  | error e =>
    show Except.error e = .ok b ↔ _
    simp

/-- A call that goes through is followed by the next. -/
@[simp] theorem ok_bind {ε α β : Type} (a : α) (f : α → Except ε β) :
    ((Except.ok a : Except ε α) >>= f) = f a := rfl

/-- A requirement in front of a call that succeeds. -/
theorem require_then {α : Type} {p : Prop} [Decidable p] {text : String}
    {f : Unit → Except Revert α} (h : p) : (require p text >>= f) = f () := by
  unfold require
  rw [if_pos h]
  rfl

/-- A failed requirement ends the call. -/
theorem require_fails {α : Type} {p : Prop} [Decidable p] {text : String}
    {f : Unit → Except Revert α} (h : ¬ p) : (require p text >>= f) = .error (.reason text) := by
  unfold require
  rw [if_neg h]
  rfl

/-! ## Words -/

/-- A 256-bit word. -/
abbrev Uint256 : Type := Fin (2 ^ 256)

/-- There are words. -/
instance neZero_words : NeZero (2 ^ 256) := ⟨by decide⟩

namespace Uint256

/-- `type(uint256).max` -/
def max : Uint256 := ⟨2 ^ 256 - 1, by decide⟩

/-- Checked addition. -/
def add (a b : Uint256) : Except Revert Uint256 :=
  if h : a.val + b.val < 2 ^ 256 then .ok ⟨a.val + b.val, h⟩ else .error .panic

/-- Checked subtraction. -/
def sub (a b : Uint256) : Except Revert Uint256 :=
  if b.val ≤ a.val then .ok ⟨a.val - b.val, by omega⟩ else .error .panic

/-- Checked multiplication. -/
def mul (a b : Uint256) : Except Revert Uint256 :=
  if h : a.val * b.val < 2 ^ 256 then .ok ⟨a.val * b.val, h⟩ else .error .panic

/-- Division, rounding down; a zero divisor panics. -/
def div (a b : Uint256) : Except Revert Uint256 :=
  if b.val = 0 then .error .panic
  else .ok ⟨a.val / b.val, Nat.lt_of_le_of_lt (Nat.div_le_self _ _) a.isLt⟩

/-- A sum that does not overflow is the sum. -/
theorem add_eq_ok {a b c : Uint256} : add a b = .ok c ↔ c.val = a.val + b.val := by
  unfold add
  constructor
  · intro h
    split at h
    · cases h
      rfl
    · cases h
  · intro h
    have hlt : a.val + b.val < 2 ^ 256 := h ▸ c.isLt
    rw [dif_pos hlt]
    exact congrArg Except.ok (Fin.ext h.symm)

/-- A difference that does not underflow is the difference. -/
theorem sub_eq_ok {a b c : Uint256} : sub a b = .ok c ↔ c.val + b.val = a.val := by
  unfold sub
  constructor
  · intro h
    split at h
    · cases h
      show a.val - b.val + b.val = a.val
      omega
    · cases h
  · intro h
    have hle : b.val ≤ a.val := by omega
    rw [if_pos hle]
    apply congrArg Except.ok
    apply Fin.ext
    show a.val - b.val = c.val
    omega

/-- A product that does not overflow is the product. -/
theorem mul_eq_ok {a b c : Uint256} : mul a b = .ok c ↔ c.val = a.val * b.val := by
  unfold mul
  constructor
  · intro h
    split at h
    · cases h
      rfl
    · cases h
  · intro h
    have hlt : a.val * b.val < 2 ^ 256 := h ▸ c.isLt
    rw [dif_pos hlt]
    exact congrArg Except.ok (Fin.ext h.symm)

/-- A product that leaves the word panics. -/
theorem mul_panics {α : Type} {a b : Uint256} {f : Uint256 → Except Revert α}
    (h : ¬ a.val * b.val < 2 ^ 256) : (mul a b >>= f) = .error .panic := by
  unfold mul
  rw [dif_neg h]
  rfl

/-- A quotient by something positive is rounded down. -/
theorem div_eq_ok {a b c : Uint256} :
    div a b = .ok c ↔ 0 < b.val ∧ c.val = a.val / b.val := by
  unfold div
  constructor
  · intro h
    split at h
    · cases h
    · cases h
      exact ⟨by omega, rfl⟩
  · intro h
    have hb : ¬ b.val = 0 := by omega
    rw [if_neg hb]
    exact congrArg Except.ok (Fin.ext h.2.symm)

end Uint256

/-! ## Mappings -/

variable {κ β : Type} [DecidableEq κ]

/-- Writing one entry of a mapping exchanges that entry's share of a sum over all of it. -/
theorem sum_update [Fintype κ] (m : κ → β) (g : κ → β → ℕ) (k : κ) (v : β) :
    ∑ x, g x (Function.update m k v x) + g k (m k) = ∑ x, g x (m x) + g k v := by
  have hrest : ∑ x ∈ Finset.univ.erase k, g x (Function.update m k v x) =
      ∑ x ∈ Finset.univ.erase k, g x (m x) := by
    apply Finset.sum_congr rfl
    intro x hx
    rw [Function.update_of_ne (Finset.ne_of_mem_erase hx)]
  rw [← Finset.add_sum_erase _ (fun x => g x (Function.update m k v x)) (Finset.mem_univ k),
    ← Finset.add_sum_erase _ (fun x => g x (m x)) (Finset.mem_univ k), hrest,
    Function.update_self]
  omega

omit [DecidableEq κ] in
/-- One entry's share is at most the whole. -/
theorem le_sum_entry [Fintype κ] (f : κ → ℕ) (k : κ) : f k ≤ ∑ x, f x :=
  Finset.single_le_sum (fun _ _ => Nat.zero_le _) (Finset.mem_univ k)

/-! ## Runs -/

/-- Contracts: what a call does to their world and the logs it emits, unless it reverts. -/
structure Machine where
  /-- all the contracts' storage -/
  World : Type
  /-- a call with its caller and arguments -/
  Call : Type
  /-- an emitted event -/
  Log : Type
  /-- execute a call -/
  exec : World → Call → Except Revert (World × List Log)

/-- What a chain keeps of one call; a reverted call has no logs. -/
structure Receipt (M : Machine) where
  call : M.Call
  logs : List M.Log

/-- The world with the receipts so far, the latest first. -/
structure Ledger (M : Machine) where
  world : M.World
  receipts : List (Receipt M)

namespace Ledger

variable {M : Machine}

/-- Include one call: a revert changes nothing but is still included. -/
def transact (s : Ledger M) (c : M.Call) : Ledger M :=
  match M.exec s.world c with
  | .ok (w, logs) => ⟨w, ⟨c, logs⟩ :: s.receipts⟩
  | .error _ => ⟨s.world, ⟨c, []⟩ :: s.receipts⟩

/-- Include calls one after the other. -/
def run (s : Ledger M) (calls : List M.Call) : Ledger M := calls.foldl transact s

/-- What holds at first, survives every executed call and every reverted one holds in the end. -/
theorem run_induct {P : Ledger M → Prop} {s : Ledger M} (h0 : P s)
    (hok : ∀ (t : Ledger M) (c : M.Call) (w : M.World) (logs : List M.Log), P t →
      M.exec t.world c = .ok (w, logs) → P ⟨w, ⟨c, logs⟩ :: t.receipts⟩)
    (hrevert : ∀ (t : Ledger M) (c : M.Call), P t → P ⟨t.world, ⟨c, []⟩ :: t.receipts⟩)
    (calls : List M.Call) : P (s.run calls) := by
  induction calls generalizing s with
  | nil => exact h0
  | cons c calls ih =>
    apply ih
    unfold transact
    split
    next w logs heq => exact hok s c w logs h0 heq
    next heq => exact hrevert s c h0

end Ledger

end SettlementOS.Computation
