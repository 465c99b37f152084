import Mathlib.Data.Nat.Notation

/-!
# Patterns

Regular expressions over an alphabet that need not be finite: a letter is described by the
predicate it has to satisfy. `Pattern.Matches` says which words match, and `Pattern.test` decides
it by derivatives (`test_iff`).
-/

set_option autoImplicit false

namespace SettlementOS.Computation

/-- A pattern. -/
inductive Pattern (α : Type) where
  | never
  | done
  | one (p : α → Bool)
  | seq (a b : Pattern α)
  | alt (a b : Pattern α)
  | many (a : Pattern α)

namespace Pattern

variable {α : Type}

/-- The words a pattern matches, from end to end. -/
inductive Matches : Pattern α → List α → Prop where
  | done : Matches .done []
  | one {p : α → Bool} {x : α} (h : p x = true) : Matches (.one p) [x]
  | seq {a b : Pattern α} {s t : List α} (ha : Matches a s) (hb : Matches b t) :
    Matches (.seq a b) (s ++ t)
  | left {a b : Pattern α} {s : List α} (h : Matches a s) : Matches (.alt a b) s
  | right {a b : Pattern α} {s : List α} (h : Matches b s) : Matches (.alt a b) s
  | stop {a : Pattern α} : Matches (.many a) []
  | more {a : Pattern α} {s t : List α} (ha : Matches a s) (hmany : Matches (.many a) t) :
    Matches (.many a) (s ++ t)

/-- Whether the empty word matches. -/
def nullable : Pattern α → Bool
  | .never => false
  | .done => true
  | .one _ => false
  | .seq a b => a.nullable && b.nullable
  | .alt a b => a.nullable || b.nullable
  | .many _ => true

/-- What is left to match after `x`. -/
def deriv (x : α) : Pattern α → Pattern α
  | .never => .never
  | .done => .never
  | .one p => if p x then .done else .never
  | .seq a b =>
    if a.nullable then .alt (.seq (a.deriv x) b) (b.deriv x) else .seq (a.deriv x) b
  | .alt a b => .alt (a.deriv x) (b.deriv x)
  | .many a => .seq (a.deriv x) (.many a)

/-- Whether a word matches. -/
def test (a : Pattern α) : List α → Bool
  | [] => a.nullable
  | x :: s => (a.deriv x).test s

/-! ## Shorthands -/

/-- One or more. -/
def plus (a : Pattern α) : Pattern α := .seq a (.many a)

/-- None or one. -/
def opt (a : Pattern α) : Pattern α := .alt a .done

/-- Exactly `n`. -/
def times (a : Pattern α) : ℕ → Pattern α
  | 0 => .done
  | n + 1 => .seq a (a.times n)

/-- Between `m` and `m + n`. -/
def upTo (a : Pattern α) (m : ℕ) : ℕ → Pattern α
  | 0 => a.times m
  | n + 1 => .alt (a.times (m + n + 1)) (a.upTo m n)

/-- `n` or more. -/
def atLeast (a : Pattern α) (n : ℕ) : Pattern α := .seq (a.times n) (.many a)

/-- The letter `x`. -/
def letter [DecidableEq α] (x : α) : Pattern α := .one fun y => decide (y = x)

/-- Words that begin with a match. -/
def starts (a : Pattern α) : Pattern α := .seq a (.many (.one fun _ => true))

/-! ## Derivatives decide -/

/-- A pattern is nullable if it matches the empty word. -/
theorem nullable_iff {a : Pattern α} : a.nullable = true ↔ a.Matches [] := by
  constructor
  · intro h
    induction a with
    | never => cases h
    | done => exact .done
    | one p => cases h
    | seq a b iha ihb =>
      obtain ⟨ha, hb⟩ := Bool.and_eq_true_iff.mp h
      exact .seq (iha ha) (ihb hb)
    | alt a b iha ihb =>
      rcases Bool.or_eq_true_iff.mp h with ha | hb
      · exact .left (iha ha)
      · exact .right (ihb hb)
    | many a ih => exact .stop
  · intro h
    generalize hs : ([] : List α) = s at h
    induction h with
    | done => rfl
    | one h => cases hs
    | seq ha hb iha ihb =>
      obtain ⟨rfl, rfl⟩ := List.append_eq_nil_iff.mp hs.symm
      exact Bool.and_eq_true_iff.mpr ⟨iha rfl, ihb rfl⟩
    | left h ih => exact Bool.or_eq_true_iff.mpr (.inl (ih hs))
    | right h ih => exact Bool.or_eq_true_iff.mpr (.inr (ih hs))
    | stop => rfl
    | more ha hmany iha ihmany => rfl

/-- The word of a repetition that is not empty begins with one that is not. -/
theorem Matches.many_cons {a : Pattern α} {x : α} {s : List α} (h : (many a).Matches (x :: s)) :
    ∃ t u, s = t ++ u ∧ a.Matches (x :: t) ∧ (many a).Matches u := by
  generalize hp : many a = p at h
  generalize hw : x :: s = w at h
  induction h generalizing s with
  | more ha hmany iha ihmany =>
    cases hp
    rename_i t u
    cases t with
    | nil => exact ihmany rfl hw
    | cons y t =>
      obtain ⟨rfl, rfl⟩ := List.cons.inj hw
      exact ⟨t, u, rfl, ha, hmany⟩
  | stop => cases hw
  | _ => cases hp

/-- A sequence matches what is split into matches of its parts. -/
theorem matches_seq {a b : Pattern α} {s : List α} :
    (seq a b).Matches s ↔ ∃ t u, s = t ++ u ∧ a.Matches t ∧ b.Matches u := by
  constructor
  · intro h
    cases h with
    | seq ha hb => exact ⟨_, _, rfl, ha, hb⟩
  · rintro ⟨t, u, rfl, ha, hb⟩
    exact .seq ha hb

/-- The first letter of a sequence is matched by its first part, unless that matches nothing. -/
theorem matches_seq_cons {a b : Pattern α} {x : α} {s : List α} :
    (seq a b).Matches (x :: s) ↔
      (∃ t u, s = t ++ u ∧ a.Matches (x :: t) ∧ b.Matches u) ∨
        (a.Matches [] ∧ b.Matches (x :: s)) := by
  constructor
  · intro h
    obtain ⟨t, u, hsplit, ha, hb⟩ := matches_seq.mp h
    cases t with
    | nil => exact .inr ⟨ha, hsplit ▸ hb⟩
    | cons y t =>
      obtain ⟨rfl, rfl⟩ := List.cons.inj hsplit
      exact .inl ⟨t, u, rfl, ha, hb⟩
  · rintro (⟨t, u, rfl, ha, hb⟩ | ⟨ha, hb⟩)
    · exact .seq ha hb
    · exact .seq (s := []) ha hb

/-- A choice matches what either of its parts does. -/
theorem matches_alt {a b : Pattern α} {s : List α} :
    (alt a b).Matches s ↔ a.Matches s ∨ b.Matches s := by
  constructor
  · intro h
    cases h with
    | left h => exact .inl h
    | right h => exact .inr h
  · rintro (h | h)
    · exact .left h
    · exact .right h

/-- The derivative matches what follows the first letter. -/
theorem deriv_iff {a : Pattern α} {x : α} {s : List α} :
    (a.deriv x).Matches s ↔ a.Matches (x :: s) := by
  induction a generalizing s with
  | never =>
    constructor <;> intro h <;> cases h
  | done =>
    constructor <;> intro h <;> cases h
  | one p =>
    by_cases hp : p x = true
    · simp only [deriv, hp, if_true]
      constructor
      · intro h
        cases h
        exact .one hp
      · intro h
        cases h
        exact .done
    · simp only [deriv, hp]
      constructor
      · intro h
        cases h
      · intro h
        cases h
        exact absurd ‹p x = true› hp
  | seq a b iha ihb =>
    have hfirst : (seq (a.deriv x) b).Matches s ↔
        ∃ t u, s = t ++ u ∧ a.Matches (x :: t) ∧ b.Matches u := by
      simp only [matches_seq, iha]
    rw [matches_seq_cons, ← hfirst, ← nullable_iff]
    by_cases hn : a.nullable = true
    · simp only [deriv, hn, if_true, true_and, matches_alt, ihb]
    · simp [deriv, hn]
  | alt a b iha ihb => rw [deriv, matches_alt, matches_alt, iha, ihb]
  | many a ih =>
    constructor
    · intro h
      obtain ⟨t, u, rfl, ha, hmany⟩ := matches_seq.mp h
      exact .more (ih.mp ha) hmany
    · intro h
      obtain ⟨t, u, rfl, ha, hmany⟩ := h.many_cons
      exact .seq (ih.mpr ha) hmany

/-- **Testing decides matching.** -/
theorem test_iff {a : Pattern α} {s : List α} : a.test s = true ↔ a.Matches s := by
  induction s generalizing a with
  | nil => exact nullable_iff
  | cons x s ih => exact ih.trans deriv_iff

/-! ## How matches begin -/

/-- A single letter matches one letter. -/
theorem matches_one {p : α → Bool} {w : List α} (h : (one p).Matches w) :
    ∃ x, w = [x] ∧ p x = true := by
  cases h with
  | one hx => exact ⟨_, rfl, hx⟩

/-- Every match begins with a letter of a kind. -/
def Begins (P : α → Prop) (a : Pattern α) : Prop :=
  ∀ w, a.Matches w → ∃ x t, w = x :: t ∧ P x

variable {P : α → Prop} {a b : Pattern α}

/-- A single letter begins with it. -/
theorem begins_one {p : α → Bool} (h : ∀ x, p x = true → P x) : (one p).Begins P := by
  intro w hw
  obtain ⟨x, rfl, hx⟩ := matches_one hw
  exact ⟨x, [], rfl, h x hx⟩

/-- A sequence begins as its first part does. -/
theorem begins_seq (h : a.Begins P) : (seq a b).Begins P := by
  intro w hw
  cases hw with
  | seq ha hb =>
    obtain ⟨x, t, rfl, hx⟩ := h _ ha
    exact ⟨x, _, rfl, hx⟩

/-- A choice begins as both of its parts do. -/
theorem begins_alt (ha : a.Begins P) (hb : b.Begins P) : (alt a b).Begins P := by
  intro w hw
  cases hw with
  | left h => exact ha w h
  | right h => exact hb w h

/-- A repetition that is not empty begins as its part does. -/
theorem begins_upTo (h : a.Begins P) (m n : ℕ) : (a.upTo (m + 1) n).Begins P := by
  induction n with
  | zero => exact begins_seq h
  | succ n ih => exact begins_alt (begins_seq h) ih

/-- So does one without an upper bound. -/
theorem begins_plus (h : a.Begins P) : a.plus.Begins P := begins_seq h

/-- So does the test whether a word starts so. -/
theorem begins_starts (h : a.Begins P) : a.starts.Begins P := begins_seq h

/-- A letter that is to come `n` times does. -/
theorem matches_times_letter [DecidableEq α] {c : α} {n : ℕ} {w : List α}
    (h : ((letter c).times n).Matches w) : w = List.replicate n c := by
  induction n generalizing w with
  | zero =>
    cases h
    rfl
  | succ n ih =>
    cases h with
    | seq ha hb =>
      obtain ⟨x, rfl, hx⟩ := matches_one ha
      rw [ih hb, of_decide_eq_true hx]
      rfl

/-- A letter repeated at least so often is that many of it, and something more. -/
theorem matches_atLeast_letter [DecidableEq α] {c : α} {n : ℕ} {w : List α}
    (h : ((letter c).atLeast n).Matches w) : ∃ t, w = List.replicate n c ++ t := by
  cases h with
  | seq ha hb => exact ⟨_, by rw [matches_times_letter ha]⟩

end Pattern

end SettlementOS.Computation
