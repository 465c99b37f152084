import SettlementOS.Computation.Service

/-!
# Rely and guarantee for interleaved programs

A `Discipline` on a service is an invariant of its worlds together with, for each program
`i`, a preorder `Rely i`: what the steps of all the others may do to the world as far as
`i` is concerned. A program is `Safe` at a world when each statement it performs, after
any steps the rely allows, keeps the invariant and stays within the rely of every other
program, and when it ends in the postcondition claimed for its return or its throw.

`Safe` has the rules of a Hoare logic (`safe_bind`, `safe_handle`, `safe_mono`,
`safe_perform`), so a program is verified along its text, one lemma for each function it
calls. `Discipline.sound` carries the result over to every run: if the program of every
request is safe when it starts, then at every reachable configuration the invariant holds
and what is left of every program is still safe.
-/

set_option autoImplicit false

namespace SettlementOS.Computation

open Service

/-- An invariant of the worlds of `S`, and what each program may rely on. -/
structure Discipline (S : Service) where
  /-- the invariant -/
  Inv : S.World → Prop
  /-- `Rely i w w'`: steps of programs other than `i` may lead from `w` to `w'` -/
  Rely : ℕ → S.World → S.World → Prop
  /-- what holds of program `i` before it starts -/
  Start : ℕ → S.World → Prop
  refl : ∀ i w, Rely i w w
  trans : ∀ i w₁ w₂ w₃, Rely i w₁ w₂ → Rely i w₂ w₃ → Rely i w₁ w₃
  start_stable : ∀ i w w', Start i w → Rely i w w' → Start i w'

namespace Discipline

variable {S : Service} (D : Discipline S)

/-- `P` survives whatever the programs other than `i` do. -/
def Stable (i : ℕ) (P : S.World → Prop) : Prop :=
  ∀ w w', P w → D.Inv w' → D.Rely i w w' → P w'

/-- A step of program `i` from `w` to `w'` keeps the invariant and what others rely on. -/
def Keeps (i : ℕ) (w w' : S.World) : Prop :=
  D.Inv w' ∧ ∀ j, j ≠ i → D.Rely j w w'

/-- Program `p`, run as the `i`-th, keeps the discipline from `w` on and ends in `Q` when it
returns and in `X` when it throws. -/
def Safe {ε α : Type} (i : ℕ) (Q : α → S.World → Prop) (X : ε → S.World → Prop) :
    Prog S.E ε α → S.World → Prop
  | .ret a, w => Q a w
  | .throw e, w => X e w
  | .perform o k, w => ∀ w', D.Rely i w w' → D.Inv w' → ∀ c r w'',
      w'.exec i o c = some (r, w'') → D.Keeps i w' w'' ∧ Safe i Q X (k r) w''

/-- From a world with `P`, statement `o` keeps the discipline and ends in `R`. -/
def Performs (i : ℕ) (o : S.E.Stmt) (P : S.World → Prop)
    (R : S.E.Answer o → S.World → Prop) : Prop :=
  ∀ w, D.Inv w → P w → ∀ c r w', w.exec i o c = some (r, w') → D.Keeps i w w' ∧ R r w'

variable {D}
variable {i : ℕ} {ε ε' α β : Type}

/-- Two stable things are stable together. -/
theorem Stable.and {P P' : S.World → Prop} (h : D.Stable i P) (h' : D.Stable i P') :
    D.Stable i fun w => P w ∧ P' w :=
  fun w w' hp hi hr => ⟨h w w' hp.1 hi hr, h' w w' hp.2 hi hr⟩

/-- A fact that does not speak of the world is stable. -/
theorem Stable.const (p : Prop) : D.Stable i fun _ => p := fun _ _ h _ _ => h

/-- A value is safe where it meets the postcondition. -/
@[simp] theorem safe_ret {Q : α → S.World → Prop} {X : ε → S.World → Prop} {a : α}
    {w : S.World} : D.Safe i Q X (.ret a) w ↔ Q a w := Iff.rfl

/-- An error is safe where it meets its own. -/
@[simp] theorem safe_throw {Q : α → S.World → Prop} {X : ε → S.World → Prop} {e : ε}
    {w : S.World} : D.Safe i Q X (.throw e) w ↔ X e w := Iff.rfl

/-- Weaker postconditions. -/
theorem safe_mono {Q Q' : α → S.World → Prop} {X X' : ε → S.World → Prop}
    {p : Prog S.E ε α} {w : S.World} (h : D.Safe i Q X p w)
    (hQ : ∀ a w, Q a w → Q' a w) (hX : ∀ e w, X e w → X' e w) : D.Safe i Q' X' p w := by
  induction p generalizing w with
  | ret a => exact hQ a w h
  | throw e => exact hX e w h
  | perform o k ih =>
    intro w' hr hi c r w'' he
    obtain ⟨hk, hs⟩ := h w' hr hi c r w'' he
    exact ⟨hk, ih r hs⟩

/-- Sequencing. -/
theorem safe_bind {Q : β → S.World → Prop} {X : ε → S.World → Prop} {p : Prog S.E ε α}
    {f : α → Prog S.E ε β} {w : S.World}
    (h : D.Safe i (fun a w => D.Safe i Q X (f a) w) X p w) : D.Safe i Q X (p.bind f) w := by
  induction p generalizing w with
  | ret a => exact h
  | throw e => exact h
  | perform o k ih =>
    intro w' hr hi c r w'' he
    obtain ⟨hk, hs⟩ := h w' hr hi c r w'' he
    exact ⟨hk, ih r hs⟩

/-- `try`/`catch`. -/
theorem safe_handle {Q : α → S.World → Prop} {X : ε' → S.World → Prop} {p : Prog S.E ε α}
    {g : ε → Prog S.E ε' α} {w : S.World}
    (h : D.Safe i Q (fun e w => D.Safe i Q X (g e) w) p w) :
    D.Safe i Q X (p.handle g) w := by
  induction p generalizing w with
  | ret a => exact h
  | throw e => exact h
  | perform o k ih =>
    intro w' hr hi c r w'' he
    obtain ⟨hk, hs⟩ := h w' hr hi c r w'' he
    exact ⟨hk, ih r hs⟩

/-- Performing one statement, then going on with its answer. -/
theorem safe_perform {Q : α → S.World → Prop} {X : ε → S.World → Prop} {o : S.E.Stmt}
    {k : S.E.Answer o → Prog S.E ε α} {P : S.World → Prop} {R : S.E.Answer o → S.World → Prop}
    {w : S.World} (hs : D.Stable i P) (ho : D.Performs i o P R) (hw : P w)
    (hk : ∀ r w, R r w → D.Safe i Q X (k r) w) : D.Safe i Q X (.perform o k) w := by
  intro w' hr hi c r w'' he
  obtain ⟨hkeep, hR⟩ := ho w' hi (hs w w' hw hi hr) c r w'' he
  exact ⟨hkeep, hk r w'' hR⟩

/-- A program all of whose statements keep `P` keeps it. -/
theorem safe_of_uses {U : S.E.Stmt → Prop} {P : S.World → Prop} (hs : D.Stable i P)
    (ho : ∀ o, U o → D.Performs i o P fun _ => P) {p : Prog S.E ε α} (hp : p.Uses U)
    {w : S.World} (hw : P w) : D.Safe i (fun _ => P) (fun _ => P) p w := by
  induction p generalizing w with
  | ret a => exact hw
  | throw e => exact hw
  | perform o k ih => exact safe_perform hs (ho o hp.1) hw fun r _ hr => ih r (hp.2 r) hr

/-- The invariant holds wherever a program ends. -/
theorem safe_inv {Q : α → S.World → Prop} {X : ε → S.World → Prop} {p : Prog S.E ε α}
    {w : S.World} (hw : D.Inv w) (h : D.Safe i Q X p w) :
    D.Safe i (fun a w => Q a w ∧ D.Inv w) (fun e w => X e w ∧ D.Inv w) p w := by
  induction p generalizing w with
  | ret a => exact ⟨h, hw⟩
  | throw e => exact ⟨h, hw⟩
  | perform o k ih =>
    intro w' hr hi c r w'' he
    obtain ⟨hk, hs⟩ := h w' hr hi c r w'' he
    exact ⟨hk, ih r hk.1 hs⟩

/-- The same from a world in which the invariant need not be known: a statement restores it. -/
theorem safe_perform_inv {Q : α → S.World → Prop} {X : ε → S.World → Prop} {o : S.E.Stmt}
    {k : S.E.Answer o → Prog S.E ε α} {w : S.World} (h : D.Safe i Q X (.perform o k) w) :
    D.Safe i (fun a w => Q a w ∧ D.Inv w) (fun e w => X e w ∧ D.Inv w) (.perform o k) w := by
  intro w' hr hi c r w'' he
  obtain ⟨hk, hs⟩ := h w' hr hi c r w'' he
  exact ⟨hk, safe_inv hk.1 hs⟩

/-- A program's safety survives the steps of the others. -/
theorem safe_stable {Q : α → S.World → Prop} {X : ε → S.World → Prop} {p : Prog S.E ε α}
    (hQ : ∀ a, D.Stable i (Q a)) (hX : ∀ e, D.Stable i (X e)) :
    D.Stable i (D.Safe i Q X p) := by
  intro w w' h hi hr
  cases p with
  | ret a => exact hQ a w w' h hi hr
  | throw e => exact hX e w w' h hi hr
  | perform o k =>
    intro w₁ hr₁ hi₁
    exact h w₁ (D.trans i w w' w₁ hr hr₁) hi₁

/-- A known value. -/
theorem safe_ofExcept {Q : α → S.World → Prop} {X : ε → S.World → Prop} {x : Except ε α}
    {w : S.World} (hok : ∀ a, x = .ok a → Q a w) (herr : ∀ e, x = .error e → X e w) :
    D.Safe i Q X (.ofExcept x) w := by
  cases x with
  | ok a => exact hok a rfl
  | error e => exact herr e rfl

/-- `.catch(() => {})`: both ends of `p` end in the same postcondition. -/
theorem safe_ignoring {Q : S.World → Prop} {X : ε' → S.World → Prop} {p : Prog S.E ε α}
    {w : S.World} (h : D.Safe i (fun _ w => Q w) (fun _ w => Q w) p w) :
    D.Safe i (fun (_ : Unit) w => Q w) X p.ignoring w := by
  refine safe_handle (safe_bind ?_)
  exact safe_mono h (fun _ _ hq => hq) (fun _ _ hq => hq)

/-- Handing a fault on together with a value. -/
theorem safe_keeping {χ : Type} {x : χ} {Q : α → S.World → Prop}
    {X : ε × χ → S.World → Prop} {p : Prog S.E ε α} {w : S.World}
    (h : D.Safe i Q (fun e w => X (e, x) w) p w) : D.Safe i Q X (p.keeping x) w :=
  safe_handle h

/-- `finally`: the cleanup runs from wherever `p` ended. -/
theorem safe_andFinally {Q : α → S.World → Prop} {X : ε → S.World → Prop}
    {p : Prog S.E ε α} {f : Prog S.E ε Unit} {w : S.World}
    (h : D.Safe i (fun a w => D.Safe i (fun _ w => Q a w) X f w)
      (fun e w => D.Safe i (fun _ w => X e w) X f w) p w) :
    D.Safe i Q X (p.andFinally f) w := by
  refine safe_bind (safe_handle (safe_bind (safe_mono h ?_ ?_)))
  · intro a w ha
    exact safe_bind (safe_mono ha (fun _ _ hq => hq) fun _ _ hx => hx)
  · intro e w he
    exact safe_bind (safe_mono he (fun _ _ hx => hx) fun _ _ hx => hx)

/-- What the programs of a service have to satisfy for the discipline to hold of its runs. -/
structure Holds (D : Discipline S) (init : S.State)
    (Q : S.Request → ℕ → S.Result → S.World → Prop)
    (X : S.Request → ℕ → S.Fault → S.World → Prop) : Prop where
  inv : D.Inv ⟨init, []⟩
  start : ∀ i, D.Start i ⟨init, []⟩
  outside : ∀ w x s, D.Inv w → S.outside x w.state = some s →
    D.Inv { w with state := s } ∧ ∀ i, D.Rely i w { w with state := s }
  ret_stable : ∀ r i a, D.Stable i (Q r i a)
  throw_stable : ∀ r i e, D.Stable i (X r i e)
  program : ∀ r i w, D.Inv w → D.Start i w → D.Safe i (Q r i) (X r i) (S.program i r) w

/-- What a run keeps: the invariant, the safety of what is left of every program, and that
the programs to come have not started. -/
structure Kept (D : Discipline S) (Q : S.Request → ℕ → S.Result → S.World → Prop)
    (X : S.Request → ℕ → S.Fault → S.World → Prop) (c : S.Config) : Prop where
  inv : D.Inv c.world
  safe : ∀ i t, c.threads[i]? = some t → D.Safe i (Q t.request i) (X t.request i) t.rest c.world
  start : ∀ i, c.threads.length ≤ i → D.Start i c.world

/-- **Soundness.** Along every run the invariant holds and every program stays safe. -/
theorem sound {init : S.State} {Q : S.Request → ℕ → S.Result → S.World → Prop}
    {X : S.Request → ℕ → S.Fault → S.World → Prop} (h : D.Holds init Q X) {c : S.Config}
    (hc : (Config.start init).Reaches c) : D.Kept Q X c := by
  refine hc.induct ⟨h.inv, by simp [Config.start], fun i _ => h.start i⟩ ?_
  intro c₁ m c₂ _ hk hm
  rcases Config.step_eq_some hm with ⟨r, -, rfl⟩ | ⟨i, ch, r, o, k, a, w, -, hi, he, rfl⟩ |
    ⟨x, s, -, hs, rfl⟩
  · refine ⟨hk.inv, ?_, fun i hl => hk.start i (by simp at hl; omega)⟩
    intro i t ht
    rw [List.getElem?_append] at ht
    split at ht
    · exact hk.safe i t ht
    · -- the program that has just arrived
      rename_i hlen
      have hi : i = c₁.threads.length := by
        by_contra hne
        have : 1 ≤ i - c₁.threads.length := by omega
        rw [List.getElem?_eq_none (by simpa using this)] at ht
        cases ht
      subst hi
      simp only [Nat.sub_self, List.getElem?_cons_zero, Option.some.injEq] at ht
      subst ht
      exact h.program r _ _ hk.inv (hk.start _ (Nat.le_refl _))
  · have hlt : i < c₁.threads.length := (List.getElem?_eq_some_iff.mp hi).1
    obtain ⟨⟨hinv, hrely⟩, hsafe⟩ :=
      hk.safe i _ hi c₁.world (D.refl i _) hk.inv ch a w he
    refine ⟨hinv, ?_, ?_⟩
    · intro j t ht
      by_cases hji : j = i
      · subst hji
        rw [List.getElem?_set_self hlt, Option.some.injEq] at ht
        exact ht ▸ hsafe
      · rw [List.getElem?_set_ne (Ne.symm hji)] at ht
        exact safe_stable (h.ret_stable _ j) (h.throw_stable _ j) _ _ (hk.safe j t ht) hinv
          (hrely j hji)
    · intro j hj
      rw [List.length_set] at hj
      exact D.start_stable j _ _ (hk.start j hj) (hrely j (by omega))
  · obtain ⟨hinv, hrely⟩ := h.outside _ x s hk.inv hs
    refine ⟨hinv, ?_, fun j hj => D.start_stable j _ _ (hk.start j hj) (hrely j)⟩
    intro j t ht
    exact safe_stable (h.ret_stable _ j) (h.throw_stable _ j) _ _ (hk.safe j t ht) hinv (hrely j)

/-- What a move of a run may do as far as program `i` is concerned, unless it is `i`'s own. -/
theorem Kept.rely {Q : S.Request → ℕ → S.Result → S.World → Prop}
    {X : S.Request → ℕ → S.Fault → S.World → Prop} {init : S.State} (h : D.Holds init Q X)
    {c c' : S.Config} (hk : D.Kept Q X c) {m : S.Move} (hm : c.step m = some c')
    (hi : ∀ ch, m ≠ .perform i ch) : D.Rely i c.world c'.world := by
  rcases Config.step_eq_some hm with ⟨r, rfl, rfl⟩ | ⟨j, ch, r, o, k, a, w, rfl, hj, he, rfl⟩ |
    ⟨x, s, rfl, hs, rfl⟩
  · exact D.refl i _
  · obtain ⟨⟨-, hrely⟩, -⟩ := hk.safe j _ hj c.world (D.refl j _) hk.inv ch a w he
    exact hrely i fun hij => hi ch (hij ▸ rfl)
  · exact (h.outside _ x s hk.inv hs).2 i

end Discipline

end SettlementOS.Computation
