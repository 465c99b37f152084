import Mathlib.Algebra.Order.Ring.Rat
import Mathlib.Order.WithBot

/-!
# Values as a script sees them

A parsed JSON value, and what a dynamically typed script makes of it: a property that is not there
is undefined, a condition holds of whatever is truthy, and arithmetic coerces whatever it is given
to a number, which may be not a number. What numbers and strings look like as each other is the
runtime's business.
-/

set_option autoImplicit false

namespace SettlementOS.Computation

/-- A number other than `NaN`. -/
abbrev Magnitude := WithBot (WithTop ℚ)

/-- A number; `none` is `NaN`. -/
abbrev JsNumber := Option Magnitude

/-- A JSON value. -/
inductive JsValue where
  | null
  | bool (b : Bool)
  | number (m : Magnitude)
  | string (s : String)
  | array (items : List JsValue)
  | object (fields : List (String × JsValue))

/-- What a script throws on a value. -/
inductive JsError where
  | readOfNull
  | notIterable
  | notPrimitive
  deriving DecidableEq, Repr

/-- How a runtime writes numbers, reads strings as numbers, and words its errors. -/
structure Runtime where
  textOf : Magnitude → String
  numberOf : String → JsNumber
  messageOf : JsError → String

/-- A fraction as a number. -/
def magnitude (q : ℚ) : Magnitude := ((q : WithTop ℚ) : WithBot (WithTop ℚ))

namespace JsValue

/-- An own property; no value but an object has one. -/
def field (name : String) : JsValue → Option JsValue
  | .object fields => fields.lookup name
  | _ => none

/-- `v ?? d` -/
def orElse (v : Option JsValue) (d : JsValue) : JsValue :=
  match v with
  | none => d
  | some .null => d
  | some v => v

/-- Whether a condition holds of the value. -/
def truthy : JsValue → Bool
  | .null => false
  | .bool b => b
  | .number m => m ≠ magnitude 0
  | .string s => s ≠ ""
  | .array _ => true
  | .object _ => true

/-- What a loop over the value goes through. -/
def iterate : JsValue → Except JsError (List JsValue)
  | .array items => .ok items
  | .string s => .ok (s.toList.map fun c => .string c.toString)
  | _ => .error .notIterable

/-- An object as a primitive. An own property is nothing to call. -/
def objectText (fields : List (String × JsValue)) : Except JsError String :=
  if (fields.lookup "toString").isSome then .error .notPrimitive else .ok "[object Object]"

mutual

/-- The value as a string. -/
def text (rt : Runtime) : JsValue → Except JsError String
  | .null => .ok "null"
  | .bool b => .ok (toString b)
  | .number m => .ok (rt.textOf m)
  | .string s => .ok s
  | .array items => (texts rt items).map (String.intercalate ",")
  | .object fields => objectText fields

/-- The items of an array as strings, where `null` is nothing. -/
def texts (rt : Runtime) : List JsValue → Except JsError (List String)
  | [] => .ok []
  | .null :: items => (texts rt items).map ("" :: ·)
  | item :: items => do
    let first ← text rt item
    let rest ← texts rt items
    return first :: rest

end

/-- `Number(v)` -/
def toNumber (rt : Runtime) : JsValue → Except JsError JsNumber
  | .null => .ok (some (magnitude 0))
  | .bool b => .ok (some (magnitude (if b then 1 else 0)))
  | .number m => .ok (some m)
  | .string s => .ok (rt.numberOf s)
  | .array items => (text rt (.array items)).map rt.numberOf
  | .object fields => (objectText fields).map rt.numberOf

end JsValue

/-! ## Numbers -/

/-- Magnitudes compare as the numbers do. -/
@[simp] theorem magnitude_le {q r : ℚ} : magnitude q ≤ magnitude r ↔ q ≤ r := by
  simp only [magnitude, WithBot.coe_le_coe, WithTop.coe_le_coe]

/-- `Math.max` of two numbers. -/
def maxNumber : JsNumber → JsNumber → JsNumber
  | some a, some b => some (max a b)
  | _, _ => none

/-- `n >= q`: nothing holds of `NaN`. -/
def atLeast (q : ℚ) : JsNumber → Bool
  | some m => magnitude q ≤ m
  | none => false

/-- What is no number is at least nothing. -/
@[simp] theorem atLeast_none (q : ℚ) : atLeast q none = false := rfl

/-- A number is at least what its magnitude is. -/
@[simp] theorem atLeast_some {q : ℚ} {m : Magnitude} :
    atLeast q (some m) = true ↔ magnitude q ≤ m := decide_eq_true_iff

/-- `NaN` spreads. -/
theorem maxNumber_eq_none {a b : JsNumber} : maxNumber a b = none ↔ a = none ∨ b = none := by
  cases a <;> cases b <;> simp [maxNumber]

/-- The larger of two numbers is at least what either of them is. -/
theorem atLeast_maxNumber {q : ℚ} {a b : JsNumber} :
    atLeast q (maxNumber a b) = true ↔
      (a ≠ none ∧ b ≠ none) ∧ (atLeast q a = true ∨ atLeast q b = true) := by
  cases a <;> cases b <;> simp [maxNumber]

/-! ## Loops that may throw -/

variable {α σ ε : Type}

/-- What holds before a loop and is kept by every round holds after it, of all it went through. -/
theorem foldlM_ok {step : σ → α → Except ε σ} {I : List α → σ → Prop}
    (hstep : ∀ done a s s', I done s → step s a = .ok s' → I (done ++ [a]) s') {l done : List α}
    {s s' : σ} (h : I done s) (hrun : l.foldlM step s = .ok s') : I (done ++ l) s' := by
  induction l generalizing done s with
  | nil =>
    have hs : s = s' := Except.ok.inj hrun
    rw [List.append_nil, ← hs]
    exact h
  | cons a l ih =>
    rw [List.foldlM_cons] at hrun
    cases ha : step s a with
    | error e =>
      rw [ha] at hrun
      cases hrun
    | ok t =>
      rw [ha] at hrun
      have hnext : I (done ++ [a] ++ l) s' := ih (hstep done a s t h ha) hrun
      rwa [List.append_assoc] at hnext

/-- A loop throws what one of its rounds throws. -/
theorem foldlM_error {step : σ → α → Except ε σ} {l : List α} {s : σ} {e : ε}
    (hrun : l.foldlM step s = .error e) : ∃ a ∈ l, ∃ t, step t a = .error e := by
  induction l generalizing s with
  | nil => cases hrun
  | cons a l ih =>
    rw [List.foldlM_cons] at hrun
    cases ha : step s a with
    | error e' =>
      rw [ha] at hrun
      have he : e' = e := Except.error.inj hrun
      exact ⟨a, List.mem_cons_self, s, he ▸ ha⟩
    | ok t =>
      rw [ha] at hrun
      obtain ⟨b, hb, t', hthrow⟩ := ih hrun
      exact ⟨b, List.mem_cons_of_mem a hb, t', hthrow⟩

end SettlementOS.Computation
