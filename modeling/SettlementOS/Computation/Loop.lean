import Mathlib.Data.Nat.Notation

/-!
# Loops

`while (!done(s)) { … }`, with a body that writes some output and leaves another state. A loop has
no fuel of its own: it terminates when some fuel is enough. Where an iteration either makes
progress or leaves the state as it found it, the loop terminates exactly when every iteration it
comes to makes progress (`Loop.terminates_iff`).
-/

set_option autoImplicit false

namespace SettlementOS.Computation

/-- A loop over states `σ` that writes `β`s. -/
structure Loop (σ β : Type) where
  done : σ → Bool
  body : σ → List β × σ

namespace Loop

variable {σ β : Type} (L : Loop σ β)

/-- What the loop writes, if it is done after so many iterations. -/
def run : ℕ → σ → Option (List β)
  | fuel, s =>
    if L.done s then some []
    else match fuel with
      | 0 => none
      | fuel + 1 => (run fuel (L.body s).2).map ((L.body s).1 ++ ·)

/-- The loop comes to an end. -/
def Terminates (s : σ) : Prop := ∃ fuel, (L.run fuel s).isSome = true

/-- The states before an iteration of the loop. -/
inductive Comes (s : σ) : σ → Prop where
  | start : Comes s s
  | next {t : σ} (h : Comes s t) (hd : L.done t = false) : Comes s (L.body t).2

/-- Every iteration the loop comes to makes progress. -/
def Progresses (μ : σ → ℕ) (s : σ) : Prop :=
  ∀ t, L.Comes s t → L.done t = false → μ (L.body t).2 < μ t

variable {L} {s t : σ} {μ : σ → ℕ}

/-- What is done terminates. -/
theorem terminates_of_done (h : L.done s = true) : L.Terminates s :=
  ⟨0, by simp [run, h]⟩

/-- A loop terminates if it does from where its body leaves it. -/
theorem terminates_body_iff (h : L.done s = false) :
    L.Terminates s ↔ L.Terminates (L.body s).2 := by
  constructor
  · rintro ⟨fuel, hfuel⟩
    cases fuel with
    | zero => simp [run, h] at hfuel
    | succ fuel => exact ⟨fuel, by simpa [run, h] using hfuel⟩
  · rintro ⟨fuel, hfuel⟩
    exact ⟨fuel + 1, by simpa [run, h] using hfuel⟩

/-- What comes after the first iteration comes. -/
theorem Comes.after (h : L.done s = false) (ht : L.Comes (L.body s).2 t) : L.Comes s t := by
  induction ht with
  | start => exact .next .start h
  | next _ hd ih => exact .next ih hd

/-- A loop that makes progress comes to an end. -/
theorem terminates_of_progresses (h : L.Progresses μ s) : L.Terminates s := by
  generalize hn : μ s = n
  induction n using Nat.strongRecOn generalizing s with
  | _ n ih =>
    cases hd : L.done s with
    | true => exact terminates_of_done hd
    | false =>
      have hless : μ (L.body s).2 < n := hn ▸ h s .start hd
      have hrest : L.Progresses μ (L.body s).2 := fun t ht => h t (ht.after hd)
      exact (terminates_body_iff hd).mpr (ih _ hless hrest rfl)

/-- The loop comes to an end from where it has come to. -/
theorem Comes.terminates_iff (h : L.Comes s t) : L.Terminates s ↔ L.Terminates t := by
  induction h with
  | start => exact Iff.rfl
  | next _ hd ih => exact ih.trans (terminates_body_iff hd)

/-- A loop that comes to a state its body does not change goes on for ever. -/
theorem not_terminates_of_stuck (h : L.Comes s t) (hd : L.done t = false)
    (hstuck : (L.body t).2 = t) : ¬ L.Terminates s := by
  rw [h.terminates_iff]
  rintro ⟨fuel, hfuel⟩
  induction fuel with
  | zero => simp [run, hd] at hfuel
  | succ fuel ih => exact ih (by simpa [run, hd, hstuck] using hfuel)

/-- **Termination is progress**, where an iteration without progress changes nothing. -/
theorem terminates_iff (hbody : ∀ t, L.done t = false → μ (L.body t).2 < μ t ∨ (L.body t).2 = t) :
    L.Terminates s ↔ L.Progresses μ s := by
  constructor
  · intro h t ht hd
    exact (hbody t hd).resolve_right fun hstuck => not_terminates_of_stuck ht hd hstuck h
  · exact terminates_of_progresses

/-- Progress is made to the end exactly when `I` holds at the start, if an iteration that makes
progress keeps and reflects `I`, and one that makes none contradicts it. -/
theorem progresses_iff {I : σ → Prop} (hdone : ∀ t, L.done t = true → I t)
    (hbody : ∀ t, L.done t = false → (μ (L.body t).2 < μ t ∧ (I t ↔ I (L.body t).2)) ∨
      (¬ μ (L.body t).2 < μ t ∧ ¬ I t)) :
    L.Progresses μ s ↔ I s := by
  constructor
  · intro h
    generalize hn : μ s = n
    induction n using Nat.strongRecOn generalizing s with
    | _ n ih =>
      cases hd : L.done s with
      | true => exact hdone s hd
      | false =>
        rcases hbody s hd with ⟨hless, hiff⟩ | ⟨hnot, -⟩
        · have hrest : L.Progresses μ (L.body s).2 := fun t ht => h t (ht.after hd)
          exact hiff.mpr (ih _ (hn ▸ hless) hrest rfl)
        · exact absurd (h s .start hd) hnot
  · intro hI
    have hkept : ∀ t, L.Comes s t → I t := by
      intro t ht
      induction ht with
      | start => exact hI
      | next ht hd ih =>
        rcases hbody _ hd with ⟨-, hiff⟩ | ⟨-, hnot⟩
        · exact hiff.mp ih
        · exact absurd ih hnot
    intro t ht hd
    rcases hbody t hd with ⟨hless, -⟩ | ⟨-, hnot⟩
    · exact hless
    · exact absurd (hkept t ht) hnot

end Loop

end SettlementOS.Computation
