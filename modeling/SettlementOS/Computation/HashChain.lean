import Mathlib.Algebra.Ring.Nat
import Mathlib.Data.List.Basic
import Mathlib.Data.List.Induction
import Mathlib.Tactic.Common

/-!
# Chains of links

A chain starts from a root and each element forms the next link from the one before; the
tip is `List.foldl link root`. When links tell their parts apart, the tip tells apart every
two sequences, up to the elements that are confused with others: `Binding.tip_iff` says
exactly which sequences a tip stands for alone.

A link is often formed from fields written one after the other with a separator between
them. `intercalate_inj` says when such a text determines its fields.
-/

set_option autoImplicit false

namespace SettlementOS.Computation

/-! ## Tips -/

section Tips

variable {δ α : Type} {link : δ → α → δ} {root : δ} {G : δ → Prop} {U : α → Prop}

/-- Links tell their parts apart: `G` holds of every link, none of which is the root, and a link
formed from an element with `U` is formed from no other. -/
structure Binding (link : δ → α → δ) (root : δ) (G : δ → Prop) (U : α → Prop) : Prop where
  good_root : G root
  good_link : ∀ d a, G (link d a)
  fresh : ∀ d a, link d a ≠ root
  inj : ∀ d d' a a', G d → G d' → U a → link d a = link d' a' → d = d' ∧ a = a'

namespace Binding

/-- The tip of a chain is good. -/
theorem tip (h : Binding link root G U) (l : List α) : G (l.foldl link root) := by
  induction l using List.reverseRecOn with
  | nil => exact h.good_root
  | append_singleton l a _ =>
    rw [List.foldl_append]
    exact h.good_link _ _

/-- A sequence whose elements are told apart is the only one with its tip. -/
theorem eq_of_tip (h : Binding link root G U) {l l' : List α} (hU : ∀ a ∈ l, U a)
    (ht : l.foldl link root = l'.foldl link root) : l = l' := by
  induction l using List.reverseRecOn generalizing l' with
  | nil =>
    rcases List.eq_nil_or_concat l' with rfl | ⟨l', a', rfl⟩
    · rfl
    · rw [List.concat_eq_append, List.foldl_append] at ht
      exact absurd ht.symm (h.fresh _ _)
  | append_singleton l a ih =>
    rcases List.eq_nil_or_concat l' with rfl | ⟨l', a', rfl⟩
    · rw [List.foldl_append] at ht
      exact absurd ht (h.fresh _ _)
    · simp only [List.concat_eq_append, List.foldl_append, List.foldl_cons, List.foldl_nil] at ht ⊢
      obtain ⟨hd, rfl⟩ := h.inj _ _ _ _ (h.tip l) (h.tip l') (hU a (by simp)) ht
      rw [ih (fun b hb => hU b (by simp [hb])) hd]

/-- **What a tip stands for.** If the elements without `U` are confused with others, a sequence is
the only one of its length with its tip exactly when all of its elements have `U`. -/
theorem tip_iff (h : Binding link root G U)
    (hconf : ∀ a, ¬ U a → ∃ a', a' ≠ a ∧ ∀ d, link d a' = link d a) (l : List α) :
    (∀ l' : List α, l'.length = l.length → l'.foldl link root = l.foldl link root → l' = l) ↔
      ∀ a ∈ l, U a := by
  refine ⟨fun honly a ha => ?_, fun hU l' _ ht => (h.eq_of_tip hU ht.symm).symm⟩
  by_contra hn
  obtain ⟨a', hne, hlink⟩ := hconf a hn
  obtain ⟨l₁, l₂, rfl⟩ := List.append_of_mem ha
  have := honly (l₁ ++ a' :: l₂) (by simp) (by simp [List.foldl_append, hlink])
  simp only [List.append_cancel_left_eq, List.cons.injEq, and_true] at this
  exact hne this

end Binding

end Tips

/-! ## Fields and separators -/

section Fields

variable {β : Type} [DecidableEq β] {sep : β}

/-- How often the separator stands in a text of fields. -/
theorem count_intercalate (l : List β) (ls : List (List β)) :
    ([sep].intercalate (l :: ls)).count sep = ls.length + ((l :: ls).map (·.count sep)).sum := by
  induction ls generalizing l with
  | nil => simp
  | cons l' ls ih =>
    rw [List.intercalate_cons_cons, List.append_assoc, List.count_append, List.count_append, ih l']
    simp only [List.count_singleton_self, List.length_cons, List.map_cons, List.sum_cons]
    omega

/-- Texts of as many fields, none of which has the separator in it, are told apart. -/
theorem intercalate_inj_of_notMem {ls ls' : List (List β)} (hlen : ls.length = ls'.length)
    (hs : ∀ l ∈ ls, sep ∉ l) (hs' : ∀ l ∈ ls', sep ∉ l)
    (h : [sep].intercalate ls = [sep].intercalate ls') : ls = ls' := by
  induction ls generalizing ls' with
  | nil => exact (List.length_eq_zero_iff.mp hlen.symm).symm
  | cons l ls ih =>
    cases ls' with
    | nil => cases hlen
    | cons l' ls' =>
      cases ls with
      | nil =>
        obtain rfl := List.length_eq_zero_iff.mp (Nat.succ.inj hlen).symm
        simpa using h
      | cons m ls =>
        cases ls' with
        | nil => cases hlen
        | cons m' ls' =>
          simp only [List.intercalate_cons_cons, List.append_assoc, List.singleton_append] at h
          have hsep : sep ∉ l := hs l List.mem_cons_self
          have hsep' : sep ∉ l' := hs' l' List.mem_cons_self
          have hl : l = l' ∧ [sep].intercalate (m :: ls) = [sep].intercalate (m' :: ls') := by
            have htake := congrArg (List.takeWhile (· ≠ sep)) h
            rw [List.takeWhile_append_of_pos (by grind), List.takeWhile_append_of_pos (by grind)]
              at htake
            obtain rfl : l = l' := by simpa using htake
            simpa using h
          obtain ⟨rfl, htail⟩ := hl
          rw [ih (Nat.succ.inj hlen) (fun x hx => hs x (List.mem_cons_of_mem _ hx))
            (fun x hx => hs' x (List.mem_cons_of_mem _ hx)) htail]

/-- A text of fields none of which has the separator in it is the text of no other fields. -/
theorem intercalate_inj {ls ls' : List (List β)} (hlen : ls.length = ls'.length)
    (hs : ∀ l ∈ ls, sep ∉ l) (h : [sep].intercalate ls = [sep].intercalate ls') : ls = ls' := by
  refine intercalate_inj_of_notMem hlen hs (fun l' hl' => ?_) h
  cases ls with
  | nil => cases ls' with
    | nil => cases hl'
    | cons _ _ => cases hlen
  | cons l ls =>
    cases ls' with
    | nil => cases hl'
    | cons m ms =>
      -- the separators of the one text are all between its fields, so those of the other are
      have hcount := congrArg (List.count sep) h
      rw [count_intercalate, count_intercalate] at hcount
      have hzero : ((l :: ls).map (·.count sep)).sum = 0 :=
        List.sum_eq_zero_iff_forall_eq_nat.mpr fun n hn => by
          obtain ⟨x, hx, rfl⟩ := List.mem_map.mp hn
          exact List.count_eq_zero.mpr (hs x hx)
      have hzero' : ((m :: ms).map (·.count sep)).sum = 0 := by
        simp only [List.length_cons] at hlen
        omega
      exact List.count_eq_zero.mp
        (List.sum_eq_zero_iff_forall_eq_nat.mp hzero' _
          (List.mem_map_of_mem (f := (·.count sep)) hl'))

end Fields

end SettlementOS.Computation
