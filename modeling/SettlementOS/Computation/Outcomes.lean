import SettlementOS.Computation.Prog

/-!
# What a program may return

The answers a program gets are not its own. `Yields` says what it may return when every answer is
one that may be given: the values at the end of all the paths that do not throw.
-/

set_option autoImplicit false

namespace SettlementOS.Computation.Prog

variable {E : Effects} {ε ε' α β : Type}

/-- The program may return the value, when the answers are among those given by `A`. -/
def Yields (A : (o : E.Stmt) → E.Answer o → Prop) : Prog E ε α → α → Prop
  | .ret a, b => b = a
  | .throw _, _ => False
  | .perform o k, b => ∃ r, A o r ∧ (k r).Yields A b

/-- The program may throw the fault. -/
def Throws (A : (o : E.Stmt) → E.Answer o → Prop) : Prog E ε α → ε → Prop
  | .ret _, _ => False
  | .throw e, e' => e' = e
  | .perform o k, e => ∃ r, A o r ∧ (k r).Throws A e

variable {A : (o : E.Stmt) → E.Answer o → Prop} {p : Prog E ε α} {f : α → Prog E ε β}

/-- A program yields what the rest yields from what its first part does. -/
theorem yields_bind {b : β} :
    (p.bind f).Yields A b ↔ ∃ a, p.Yields A a ∧ (f a).Yields A b := by
  induction p with
  | ret a => simp [bind, Yields]
  | throw e => simp [bind, Yields]
  | perform o k ih =>
    simp only [bind, Yields, ih]
    constructor
    · rintro ⟨r, hr, a, ha, hb⟩
      exact ⟨a, ⟨r, hr, ha⟩, hb⟩
    · rintro ⟨a, ⟨r, hr, ha⟩, hb⟩
      exact ⟨r, hr, a, ha, hb⟩

/-- A handled program yields its value, or what the handler does of its error. -/
theorem yields_handle {h : ε → Prog E ε' α} {a : α} :
    (p.handle h).Yields A a ↔ p.Yields A a ∨ ∃ e, p.Throws A e ∧ (h e).Yields A a := by
  induction p with
  | ret b => simp [handle, Yields, Throws]
  | throw e => simp [handle, Yields, Throws]
  | perform o k ih =>
    simp only [handle, Yields, Throws, ih]
    constructor
    · rintro ⟨r, hr, ha | ⟨e, he, ha⟩⟩
      · exact .inl ⟨r, hr, ha⟩
      · exact .inr ⟨e, ⟨r, hr, he⟩, ha⟩
    · rintro (⟨r, hr, ha⟩ | ⟨e, ⟨r, hr, he⟩, ha⟩)
      · exact ⟨r, hr, .inl ha⟩
      · exact ⟨r, hr, .inr ⟨e, he, ha⟩⟩

/-- An error of the first part is thrown. -/
theorem throws_bind_left {e : ε} (h : p.Throws A e) : (p.bind f).Throws A e := by
  induction p with
  | ret a => cases h
  | throw e' => exact h
  | perform o k ih =>
    obtain ⟨r, hr, he⟩ := h
    exact ⟨r, hr, ih r he⟩

/-- An outcome yields its value. -/
@[simp] theorem yields_ofExcept {x : Except ε α} {a : α} :
    (ofExcept x : Prog E ε α).Yields A a ↔ x = .ok a := by
  cases x with
  | ok b =>
    simp only [ofExcept, Yields, Except.ok.injEq]
    exact eq_comm
  | error e => simp [ofExcept, Yields]

end SettlementOS.Computation.Prog
