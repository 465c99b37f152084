import Mathlib.Data.List.Forall2
import Mathlib.Tactic.Common

/-!
# Texts that are read back piece by piece

A text of several pieces is read back when each piece tells where it ends: by itself, or because
what follows it is a symbol that stops it. `ReadBack` says so of two families of pieces: whenever
a piece of one and a piece of the other, each with something stopped after it, make the same
text, they are related and what comes after is the same. It passes to lists that are joined by a
separator and closed.
-/

set_option autoImplicit false

namespace SettlementOS.Computation

variable {σ α β : Type} {stop : σ → Prop}

/-- A text that is empty or begins with a symbol that stops what comes before. -/
def Stopped (stop : σ → Prop) (rest : List σ) : Prop := ∀ c ∈ rest.head?, stop c

/-- The end stops. -/
theorem stopped_nil : Stopped stop [] := by
  intro c hc
  cases hc

/-- What begins with a stop stops. -/
theorem stopped_cons {c : σ} {rest : List σ} (h : stop c) : Stopped stop (c :: rest) := by
  intro c' hc'
  cases hc'
  exact h

/-- Of two texts that go on without a stop until they are stopped, one is no longer than the
other. -/
theorem unstopped_inj {xs ys rest rest' : List σ} (hx : ∀ c ∈ xs, ¬ stop c)
    (hy : ∀ c ∈ ys, ¬ stop c) (hrest : Stopped stop rest) (hrest' : Stopped stop rest')
    (h : xs ++ rest = ys ++ rest') : xs = ys ∧ rest = rest' := by
  induction xs generalizing ys with
  | nil =>
    cases ys with
    | nil => exact ⟨rfl, h⟩
    | cons y ys =>
      have hhead : y ∈ rest.head? := by
        rw [show rest = y :: ys ++ rest' from h]
        rfl
      exact absurd (hrest y hhead) (hy y List.mem_cons_self)
  | cons x xs ih =>
    cases ys with
    | nil =>
      have hhead : x ∈ rest'.head? := by
        rw [show rest' = x :: xs ++ rest from h.symm]
        rfl
      exact absurd (hrest' x hhead) (hx x List.mem_cons_self)
    | cons y ys =>
      obtain ⟨rfl, htail⟩ := List.cons.inj h
      obtain ⟨rfl, hend⟩ := ih (fun c hc => hx c (List.mem_cons_of_mem x hc))
        (fun c hc => hy c (List.mem_cons_of_mem x hc)) htail
      exact ⟨rfl, hend⟩

/-- Two pieces that, stopped, make the same text are related, and the same comes after. -/
def ReadBack (stop : σ → Prop) (enc : α → List σ) (R : α → α → Prop) (a b : α) : Prop :=
  ∀ rest rest', Stopped stop rest → Stopped stop rest' → enc a ++ rest = enc b ++ rest' →
    R a b ∧ rest = rest'

/-- Pieces joined by a separator. -/
def joined (sep : σ) : List (List σ) → List σ
  | [] => []
  | x :: xs => x ++ xs.flatMap (sep :: ·)

variable {enc : α → List σ} {R : α → α → Prop} {sep close : σ}

/-- Pieces each behind a separator, and closed. -/
theorem separated_inj {xs ys : List α} {rest rest' : List σ}
    (hreads : ∀ a ∈ xs, ∀ b ∈ ys, ReadBack stop enc R a b) (hsep : stop sep) (hclose : stop close)
    (hne : sep ≠ close)
    (h : (xs.map enc).flatMap (sep :: ·) ++ close :: rest =
      (ys.map enc).flatMap (sep :: ·) ++ close :: rest') :
    List.Forall₂ R xs ys ∧ rest = rest' := by
  have hstopped : ∀ (zs : List α) (r : List σ),
      Stopped stop ((zs.map enc).flatMap (sep :: ·) ++ close :: r) := by
    intro zs r
    cases zs with
    | nil => exact stopped_cons hclose
    | cons z zs => exact stopped_cons hsep
  induction xs generalizing ys with
  | nil =>
    cases ys with
    | nil => exact ⟨.nil, (List.cons.inj h).2⟩
    | cons y ys => exact absurd (List.cons.inj h).1.symm hne
  | cons x xs ih =>
    cases ys with
    | nil => exact absurd (List.cons.inj h).1 hne
    | cons y ys =>
      have htail : enc x ++ ((xs.map enc).flatMap (sep :: ·) ++ close :: rest) =
          enc y ++ ((ys.map enc).flatMap (sep :: ·) ++ close :: rest') := by
        have hall : enc x ++ (xs.map enc).flatMap (sep :: ·) ++ close :: rest =
            enc y ++ (ys.map enc).flatMap (sep :: ·) ++ close :: rest' := (List.cons.inj h).2
        rwa [List.append_assoc, List.append_assoc] at hall
      obtain ⟨hxy, hrest⟩ := hreads x List.mem_cons_self y List.mem_cons_self _ _ (hstopped xs rest)
        (hstopped ys rest') htail
      obtain ⟨hxs, hend⟩ := ih (fun a ha b hb =>
        hreads a (List.mem_cons_of_mem x ha) b (List.mem_cons_of_mem y hb)) hrest
      exact ⟨.cons hxy hxs, hend⟩

/-- **Lists.** Pieces that are read back are read back from a list of them. -/
theorem joined_inj {xs ys : List α} {rest rest' : List σ}
    (hreads : ∀ a ∈ xs, ∀ b ∈ ys, ReadBack stop enc R a b) (hsep : stop sep) (hclose : stop close)
    (hne : sep ≠ close) (hx : ∀ a ∈ xs, ∃ c ∈ (enc a).head?, c ≠ close)
    (hy : ∀ b ∈ ys, ∃ c ∈ (enc b).head?, c ≠ close)
    (h : joined sep (xs.map enc) ++ close :: rest = joined sep (ys.map enc) ++ close :: rest') :
    List.Forall₂ R xs ys ∧ rest = rest' := by
  have hopen : ∀ {a : α} {r r' : List σ}, (∃ c ∈ (enc a).head?, c ≠ close) →
      enc a ++ r ≠ close :: r' := by
    rintro a r r' ⟨c, hc, hcne⟩ heq
    cases henc : enc a with
    | nil =>
      rw [henc] at hc
      cases hc
    | cons d ds =>
      rw [henc] at hc heq
      cases hc
      exact hcne (List.cons.inj heq).1
  cases xs with
  | nil =>
    cases ys with
    | nil => exact ⟨.nil, (List.cons.inj h).2⟩
    | cons y ys =>
      have hfirst :
          close :: rest = enc y ++ ((ys.map enc).flatMap (sep :: ·) ++ close :: rest') := by
        rw [← List.append_assoc]
        exact h
      exact absurd hfirst.symm (hopen (hy y List.mem_cons_self))
  | cons x xs =>
    cases ys with
    | nil =>
      have hfirst :
          enc x ++ ((xs.map enc).flatMap (sep :: ·) ++ close :: rest) = close :: rest' := by
        rw [← List.append_assoc]
        exact h
      exact absurd hfirst (hopen (hx x List.mem_cons_self))
    | cons y ys =>
      refine separated_inj hreads hsep hclose hne ?_
      have hall : enc x ++ (xs.map enc).flatMap (sep :: ·) ++ close :: rest =
          enc y ++ (ys.map enc).flatMap (sep :: ·) ++ close :: rest' := h
      show sep :: enc x ++ (xs.map enc).flatMap (sep :: ·) ++ close :: rest =
        sep :: enc y ++ (ys.map enc).flatMap (sep :: ·) ++ close :: rest'
      rw [List.cons_append, List.cons_append, List.cons_append, List.cons_append, hall]

end SettlementOS.Computation
