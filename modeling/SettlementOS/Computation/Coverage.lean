import Mathlib.Algebra.BigOperators.Group.List.Basic
import Mathlib.Algebra.Order.Ring.Int
import Mathlib.Tactic.Common

/-!
# Shortest covering prefixes

Members of a list are taken from the front until what they are worth covers a need. What is taken
is the shortest prefix that covers it, or all of the list where even that does not.
-/

set_option autoImplicit false

namespace SettlementOS.Computation

variable {α : Type} (value : α → ℤ)

/-- What the members of a list are worth together. -/
def worthAll (l : List α) : ℤ := (l.map value).sum

/-- Members are taken until the need is covered. -/
def coveringPrefix (need : ℤ) : List α → List α
  | [] => []
  | a :: l => if need ≤ 0 then [] else a :: coveringPrefix (need - value a) l

/-- A prefix that covers a need, when no shorter one does. -/
def CoversFirst (need : ℤ) (taken l : List α) : Prop :=
  taken <+: l ∧ need ≤ worthAll value taken ∧
    ∀ shorter, shorter <+: taken → shorter ≠ taken → worthAll value shorter < need

variable {value}

/-- No positions are worth nothing. -/
@[simp] theorem worthAll_nil : worthAll value [] = 0 := rfl

/-- The worth of several is that of the first and of the others. -/
@[simp] theorem worthAll_cons (a : α) (l : List α) :
    worthAll value (a :: l) = value a + worthAll value l := List.sum_cons

/-- Nothing is taken once the need is covered. -/
theorem coveringPrefix_of_covered {need : ℤ} (h : need ≤ 0) (l : List α) :
    coveringPrefix value need l = [] := by
  cases l with
  | nil => rfl
  | cons a l => exact if_pos h

/-- Before that, the first member is. -/
theorem coveringPrefix_cons {need : ℤ} (h : ¬ need ≤ 0) (a : α) (l : List α) :
    coveringPrefix value need (a :: l) = a :: coveringPrefix value (need - value a) l := if_neg h

/-- Members are taken from the front. -/
theorem coveringPrefix_initial (need : ℤ) (l : List α) : coveringPrefix value need l <+: l := by
  induction l generalizing need with
  | nil => exact List.nil_prefix
  | cons a l ih =>
    by_cases h : need ≤ 0
    · rw [coveringPrefix_of_covered h]
      exact List.nil_prefix
    · rw [coveringPrefix_cons h]
      exact List.cons_prefix_cons.mpr ⟨rfl, ih _⟩

/-- What all members cover, those taken cover. -/
theorem le_worthAll_coveringPrefix {need : ℤ} {l : List α} (h : need ≤ worthAll value l) :
    need ≤ worthAll value (coveringPrefix value need l) := by
  induction l generalizing need with
  | nil => exact h
  | cons a l ih =>
    by_cases hn : need ≤ 0
    · rw [coveringPrefix_of_covered hn]
      exact hn
    · rw [worthAll_cons] at h
      have hrest := @ih (need - value a) (by omega)
      rw [coveringPrefix_cons hn, worthAll_cons]
      omega

/-- Before the last one was taken, the need was not covered. -/
theorem worthAll_shorter_lt {need : ℤ} {l shorter : List α}
    (hp : shorter <+: coveringPrefix value need l) (hne : shorter ≠ coveringPrefix value need l) :
    worthAll value shorter < need := by
  induction l generalizing need shorter with
  | nil => exact absurd (List.prefix_nil.mp hp) hne
  | cons a l ih =>
    by_cases hn : need ≤ 0
    · rw [coveringPrefix_of_covered hn] at hp hne
      exact absurd (List.prefix_nil.mp hp) hne
    · rw [coveringPrefix_cons hn] at hp hne
      cases shorter with
      | nil =>
        rw [worthAll_nil]
        omega
      | cons b shorter =>
        obtain ⟨rfl, hp⟩ := List.cons_prefix_cons.mp hp
        have hrest := ih hp fun heq => hne (by rw [heq])
        rw [worthAll_cons]
        omega

/-- What is taken covers the need first, if anything does. -/
theorem coversFirst_coveringPrefix {need : ℤ} {l : List α} (h : need ≤ worthAll value l) :
    CoversFirst value need (coveringPrefix value need l) l :=
  ⟨coveringPrefix_initial need l, le_worthAll_coveringPrefix h,
    fun _ hp hne => worthAll_shorter_lt hp hne⟩

/-- It covers a greater need first too, if it covers it. -/
theorem CoversFirst.greater {need need' : ℤ} {taken l : List α} (h : CoversFirst value need taken l)
    (hle : need ≤ need') (hcover : need' ≤ worthAll value taken) :
    CoversFirst value need' taken l :=
  ⟨h.1, hcover, fun shorter hp hne => lt_of_lt_of_le (h.2.2 shorter hp hne) hle⟩

end SettlementOS.Computation
