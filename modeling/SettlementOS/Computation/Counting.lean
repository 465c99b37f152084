import Mathlib.Algebra.BigOperators.Fin
import Mathlib.Algebra.BigOperators.Group.Finset.Basic
import Mathlib.Algebra.BigOperators.Group.Finset.Piecewise
import Mathlib.Algebra.Order.BigOperators.Group.Finset
import Mathlib.Data.List.GetD
import SettlementOS.Computation.Trails

/-!
# Counting along a run

What a history holds of some kind is what the trails of its programs hold of it, taken together;
what the programs have ended in is counted program by program too. Where each program that ends
one way has performed one such statement, and the others none, the two counts agree.
-/

set_option autoImplicit false

namespace SettlementOS.Computation.Service

variable {E : Effects}

/-- Some statements of a history, counted along the trails of its programs. -/
theorem countP_trails (p : Event E → Bool) {n : ℕ} {h : List (Entry E)}
    (hk : ∀ e ∈ h, e.tid < n) :
    h.countP (fun e => p ⟨e.stmt, e.answer⟩) =
      ∑ i ∈ Finset.range n, (trail i h).countP p := by
  induction h with
  | nil => exact Finset.sum_const_zero.symm
  | cons e h ih =>
    have hone : ∀ i, (trail i (e :: h)).countP p = (trail i h).countP p +
        if e.tid = i then (if p ⟨e.stmt, e.answer⟩ = true then 1 else 0) else 0 := by
      intro i
      by_cases he : e.tid = i
      · rw [trail_own he, List.countP_cons, if_pos he]
      · rw [trail_other he, if_neg he, Nat.add_zero]
    have hmem : e.tid ∈ Finset.range n := Finset.mem_range.mpr (hk e List.mem_cons_self)
    rw [List.countP_cons, ih fun e' he' => hk e' (List.mem_cons_of_mem e he')]
    simp only [hone, Finset.sum_add_distrib, Finset.sum_ite_eq, if_pos hmem]

/-- What the statements of a history amount to, added up along the trails of its programs. -/
theorem sum_trails (f : Event E → ℕ) {n : ℕ} {h : List (Entry E)} (hk : ∀ e ∈ h, e.tid < n) :
    (h.map fun e => f ⟨e.stmt, e.answer⟩).sum =
      ∑ i ∈ Finset.range n, ((trail i h).map f).sum := by
  induction h with
  | nil => exact Finset.sum_const_zero.symm
  | cons e h ih =>
    have hone : ∀ i, ((trail i (e :: h)).map f).sum = ((trail i h).map f).sum +
        if e.tid = i then f ⟨e.stmt, e.answer⟩ else 0 := by
      intro i
      by_cases he : e.tid = i
      · rw [trail_own he, List.map_cons, List.sum_cons, if_pos he, Nat.add_comm]
      · rw [trail_other he, if_neg he, Nat.add_zero]
    have hmem : e.tid ∈ Finset.range n := Finset.mem_range.mpr (hk e List.mem_cons_self)
    rw [List.map_cons, List.sum_cons, ih fun e' he' => hk e' (List.mem_cons_of_mem e he'),
      Nat.add_comm]
    simp only [hone, Finset.sum_add_distrib, Finset.sum_ite_eq, if_pos hmem]

/-- The members of a list, added up place by place. -/
theorem sum_places (l : List ℕ) : ∑ i ∈ Finset.range l.length, l.getD i 0 = l.sum := by
  rw [Finset.sum_range, ← Fin.sum_univ_getElem l]
  exact Finset.sum_congr rfl fun i _ => List.getD_eq_getElem l 0 i.isLt

/-- **Budgets.** Where no program has spent more than its share, what has been spent leaves the
share of one that has spent nothing. -/
theorem spent_add_le {f : Event E → ℕ} {shares : List ℕ} {h : List (Entry E)} {i : ℕ}
    (hk : ∀ e ∈ h, e.tid < shares.length)
    (hshare : ∀ j < shares.length, ((trail j h).map f).sum ≤ shares.getD j 0)
    (hi : i < shares.length) (hnone : ((trail i h).map f).sum = 0) :
    (h.map fun e => f ⟨e.stmt, e.answer⟩).sum + shares.getD i 0 ≤ shares.sum := by
  have hmem : i ∈ Finset.range shares.length := Finset.mem_range.mpr hi
  have hothers : ∑ j ∈ (Finset.range shares.length).erase i, ((trail j h).map f).sum ≤
      ∑ j ∈ (Finset.range shares.length).erase i, shares.getD j 0 :=
    Finset.sum_le_sum fun j hj => hshare j (Finset.mem_range.mp (Finset.mem_of_mem_erase hj))
  rw [sum_trails f hk, ← sum_places shares, ← Finset.add_sum_erase _ _ hmem,
    ← Finset.add_sum_erase _ (fun j => shares.getD j 0) hmem, hnone]
  omega

/-- Some members of a list, counted place by place. -/
theorem countP_places {α : Type} (q : α → Bool) (l : List α) :
    l.countP q = ∑ i ∈ Finset.range l.length, if (l[i]?.any q) = true then 1 else 0 := by
  induction l using List.reverseRecOn with
  | nil => rfl
  | append_singleton l a ih =>
    have hold : ∀ i ∈ Finset.range l.length, (if ((l ++ [a])[i]?.any q) = true then 1 else 0) =
        if (l[i]?.any q) = true then 1 else 0 := by
      intro i hi
      rw [List.getElem?_append_left (Finset.mem_range.mp hi)]
    rw [List.countP_append, List.length_append, List.length_singleton, Finset.sum_range_succ,
      Finset.sum_congr rfl hold, ← ih, List.getElem?_concat_length, List.countP_singleton]
    rfl

variable {S : Service}

/-- **Counting.** If each program that has ended as `q` says has performed one statement of a kind
and each other one none, the history holds as many of the kind as there are such programs. -/
theorem countP_history {p : Event S.E → Bool} {q : S.Thread → Bool} {c : S.Config}
    (hk : ∀ e ∈ c.world.history, e.tid < c.threads.length)
    (hone : ∀ i t, c.threads[i]? = some t →
      (trail i c.world.history).countP p = if q t = true then 1 else 0) :
    c.world.history.countP (fun e => p ⟨e.stmt, e.answer⟩) = c.threads.countP q := by
  rw [countP_trails p hk, countP_places]
  refine Finset.sum_congr rfl fun i hi => ?_
  have hlt : i < c.threads.length := Finset.mem_range.mp hi
  have ht : c.threads[i]? = some c.threads[i] := List.getElem?_eq_getElem hlt
  rw [hone i _ ht, ht]
  rfl

end SettlementOS.Computation.Service
