import SettlementOS.Computation.Discipline
import SettlementOS.Computation.Trails

/-!
# Where a program ends

Once a discipline is known to hold of a service, what one program brings about can be shown
without proving again that its statements keep the discipline, and without its ends being
stable: `Finishes` is about the world of the very step at which the program ends. Between two
of its statements the program relies on the others, and on nobody else's step being on its own
trail.
-/

set_option autoImplicit false

namespace SettlementOS.Computation

open Service

namespace Discipline

variable {S : Service} (D : Discipline S)

/-- What the steps of the programs other than `i` may do: the rely, and nothing to the trail. -/
structure Meanwhile (i : ℕ) (w w' : S.World) : Prop where
  rely : D.Rely i w w'
  inv : D.Inv w'
  trail : trail i w'.history = trail i w.history

/-- From a world where it is `p`'s turn, program `p` ends in `Q` when it returns and in `X` when
it throws, in the world of the step that ends it. -/
def Finishes {ε α : Type} (i : ℕ) (Q : α → S.World → Prop) (X : ε → S.World → Prop) :
    Prog S.E ε α → S.World → Prop
  | .ret a, w => Q a w
  | .throw e, w => X e w
  | .perform o k, w => ∀ w', D.Meanwhile i w w' → ∀ c r w'', w'.exec i o c = some (r, w'') →
      D.Inv w'' → Finishes i Q X (k r) w''

/-- `P` survives whatever the programs other than `i` do. -/
def Survives (i : ℕ) (P : S.World → Prop) : Prop :=
  ∀ w w', P w → D.Meanwhile i w w' → P w'

variable {D}
variable {i : ℕ} {ε ε' α β : Type}

/-- A value finishes where it meets the postcondition. -/
theorem finishes_ret_iff {Q : α → S.World → Prop} {X : ε → S.World → Prop} {a : α}
    {w : S.World} : D.Finishes i Q X (.ret a) w ↔ Q a w := Iff.rfl

/-- Weaker postconditions. -/
theorem finishes_mono {Q Q' : α → S.World → Prop} {X X' : ε → S.World → Prop}
    {p : Prog S.E ε α} {w : S.World} (h : D.Finishes i Q X p w)
    (hQ : ∀ a w, Q a w → Q' a w) (hX : ∀ e w, X e w → X' e w) : D.Finishes i Q' X' p w := by
  induction p generalizing w with
  | ret a => exact hQ a w h
  | throw e => exact hX e w h
  | perform o k ih => exact fun w' hw c r w'' he hi => ih r (h w' hw c r w'' he hi)

/-- Sequencing. -/
theorem finishes_bind {Q : β → S.World → Prop} {X : ε → S.World → Prop} {p : Prog S.E ε α}
    {f : α → Prog S.E ε β} {w : S.World}
    (h : D.Finishes i (fun a w => D.Finishes i Q X (f a) w) X p w) :
    D.Finishes i Q X (p.bind f) w := by
  induction p generalizing w with
  | ret a => exact h
  | throw e => exact h
  | perform o k ih => exact fun w' hw c r w'' he hi => ih r (h w' hw c r w'' he hi)

/-- `try`/`catch`. -/
theorem finishes_handle {Q : α → S.World → Prop} {X : ε' → S.World → Prop} {p : Prog S.E ε α}
    {g : ε → Prog S.E ε' α} {w : S.World}
    (h : D.Finishes i Q (fun e w => D.Finishes i Q X (g e) w) p w) :
    D.Finishes i Q X (p.handle g) w := by
  induction p generalizing w with
  | ret a => exact h
  | throw e => exact h
  | perform o k ih => exact fun w' hw c r w'' he hi => ih r (h w' hw c r w'' he hi)

/-- Performing one statement, then going on with its answer. -/
theorem finishes_perform {Q : α → S.World → Prop} {X : ε → S.World → Prop} {o : S.E.Stmt}
    {k : S.E.Answer o → Prog S.E ε α} {P : S.World → Prop} {R : S.E.Answer o → S.World → Prop}
    {w : S.World} (hs : D.Survives i P)
    (ho : ∀ w c r w', D.Inv w → P w → w.exec i o c = some (r, w') → D.Inv w' → R r w') (hw : P w)
    (hk : ∀ r w, R r w → D.Finishes i Q X (k r) w) : D.Finishes i Q X (.perform o k) w :=
  fun w' hm c r w'' he hi => hk r w'' (ho w' c r w'' hm.inv (hs w w' hw hm) he hi)

/-- A known value. -/
theorem finishes_ofExcept {Q : α → S.World → Prop} {X : ε → S.World → Prop} {x : Except ε α}
    {w : S.World} (hok : ∀ a, x = .ok a → Q a w) (herr : ∀ e, x = .error e → X e w) :
    D.Finishes i Q X (.ofExcept x) w := by
  cases x with
  | ok a => exact hok a rfl
  | error e => exact herr e rfl

/-- `.catch(() => {})`: both ends of `p` end in the same postcondition. -/
theorem finishes_ignoring {Q : S.World → Prop} {X : ε' → S.World → Prop} {p : Prog S.E ε α}
    {w : S.World} (h : D.Finishes i (fun _ => Q) (fun _ => Q) p w) :
    D.Finishes i (fun (_ : Unit) => Q) X p.ignoring w :=
  finishes_handle (finishes_bind (finishes_mono h (fun _ _ hq => hq) fun _ _ hq => hq))

/-- Handing a fault on together with a value. -/
theorem finishes_keeping {χ : Type} {x : χ} {Q : α → S.World → Prop}
    {X : ε × χ → S.World → Prop} {p : Prog S.E ε α} {w : S.World}
    (h : D.Finishes i Q (fun e => X (e, x)) p w) : D.Finishes i Q X (p.keeping x) w :=
  finishes_handle h

/-- `finally`: the cleanup runs from wherever `p` ended. -/
theorem finishes_andFinally {Q : α → S.World → Prop} {X : ε → S.World → Prop}
    {p : Prog S.E ε α} {f : Prog S.E ε Unit} {w : S.World}
    (h : D.Finishes i (fun a => D.Finishes i (fun _ => Q a) X f)
      (fun e => D.Finishes i (fun _ => X e) X f) p w) :
    D.Finishes i Q X (p.andFinally f) w := by
  refine finishes_bind (finishes_handle (finishes_bind (finishes_mono h ?_ ?_)))
  · intro a w ha
    exact finishes_bind (finishes_mono ha (fun _ _ hq => hq) fun _ _ hx => hx)
  · intro e w he
    exact finishes_bind (finishes_mono he (fun _ _ hx => hx) fun _ _ hx => hx)

/-- A program whose statements keep `P` ends where `P` holds. -/
theorem finishes_of_uses {U : S.E.Stmt → Prop} {P : S.World → Prop} (hs : D.Survives i P)
    (ho : ∀ o, U o → ∀ w c r w', D.Inv w → P w → w.exec i o c = some (r, w') → D.Inv w' → P w')
    {p : Prog S.E ε α} (hp : p.Uses U) {w : S.World} (hw : P w) :
    D.Finishes i (fun _ => P) (fun _ => P) p w := by
  induction p generalizing w with
  | ret a => exact hw
  | throw e => exact hw
  | perform o k ih => exact finishes_perform hs (ho o hp.1) hw fun r _ hr => ih r (hp.2 r) hr

/-! ## Runs -/

variable {init : S.State} {Q : S.Request → ℕ → S.Result → S.World → Prop}
  {X : S.Request → ℕ → S.Fault → S.World → Prop}
variable {Q' : ℕ → S.Request → S.Result → S.World → Prop}
  {X' : ℕ → S.Request → S.Fault → S.World → Prop}

/-- A step of another program, or of the outside, happens meanwhile. -/
theorem Kept.meanwhile (h : D.Holds init Q X) {c c' : S.Config} (hk : D.Kept Q X c)
    (hk' : D.Kept Q X c') {m : S.Move} (hm : c.step m = some c') (hi : ∀ ch, m ≠ .perform i ch) :
    D.Meanwhile i c.world c'.world where
  rely := hk.rely h hm hi
  inv := hk'.inv
  trail := by
    rcases Config.step_eq_some hm with ⟨r, -, rfl⟩ | ⟨j, ch, r, o, k, a, w, rfl, -, he, rfl⟩ |
      ⟨x, s, -, -, rfl⟩
    · rfl
    · obtain ⟨s, -, rfl⟩ := World.exec_eq_some.mp he
      exact trail_other fun hji : j = i => hi ch (hji ▸ rfl)
    · rfl

/-- **Ends.** Along every run, a program that has not ended will end as its text says. -/
theorem Holds.finishes (h : D.Holds init Q X)
    (hprog : ∀ i r w, D.Inv w → D.Start i w → trail i w.history = [] →
      D.Finishes i (Q' i r) (X' i r) (S.program i r) w)
    {c : S.Config} (hc : (Config.start init).Reaches c) :
    ∀ i t, c.threads[i]? = some t → t.ended = false →
      D.Finishes i (Q' i t.request) (X' i t.request) t.rest c.world := by
  refine hc.induct (P := fun c => ∀ i t, c.threads[i]? = some t → t.ended = false →
    D.Finishes i (Q' i t.request) (X' i t.request) t.rest c.world) (by simp [Config.start]) ?_
  intro c₁ m c₂ hreach ih hm i t ht hended
  have hk := sound h hreach
  have hk' := sound h (hreach.tail hm)
  by_cases hi : ∃ ch, m = .perform i ch
  · -- its own step
    obtain ⟨ch, rfl⟩ := hi
    rcases Config.step_eq_some hm with ⟨r, heq, -⟩ | ⟨j, ch', r, o, k, a, w, heq, hj, he, rfl⟩ |
      ⟨x, s, heq, -, -⟩
    · cases heq
    · cases heq
      have hlt := (List.getElem?_eq_some_iff.mp hj).1
      rw [List.getElem?_set_self hlt, Option.some.injEq] at ht
      subst ht
      exact ih i _ hj rfl c₁.world ⟨D.refl i _, hk.inv, rfl⟩ ch a w he hk'.inv
    · cases heq
  · have hmean := hk.meanwhile (i := i) h hk' hm fun ch heq => hi ⟨ch, heq⟩
    have hsurvives : c₁.threads[i]? = some t →
        D.Finishes i (Q' i t.request) (X' i t.request) t.rest c₂.world := by
      intro ht
      have hold := ih i t ht hended
      obtain ⟨r, rest⟩ := t
      cases rest with
      | ret a => cases hended
      | throw e => cases hended
      | perform o k =>
        intro w' hw' ch a w'' he hinv
        exact hold w' ⟨D.trans i _ _ _ hmean.rely hw'.rely, hw'.inv, hw'.trail.trans hmean.trail⟩
          ch a w'' he hinv
    rcases Config.step_eq_some hm with ⟨r, -, rfl⟩ | ⟨j, ch, r, o, k, a, w, rfl, hj, he, rfl⟩ |
      ⟨x, s, -, hs, rfl⟩
    · by_cases hlt : i < c₁.threads.length
      · rw [List.getElem?_append_left hlt] at ht
        exact hsurvives ht
      · -- the program that has just arrived
        obtain ⟨rfl, rfl⟩ := getElem?_concat_last hlt ht
        have hknown := (hreach.confined (U := fun _ => True) (A := fun _ => False)
          (fun _ _ hf => hf.elim)).known
        exact hprog _ r _ hk.inv (hk.start _ (Nat.le_refl _)) (trail_of_unknown hknown)
    · have hne : j ≠ i := fun hji => hi ⟨ch, hji ▸ rfl⟩
      rw [List.getElem?_set_ne hne] at ht
      exact hsurvives ht
    · exact hsurvives ht

/-- The step that ends a program ends it as its text says. -/
theorem Holds.finished (h : D.Holds init Q X)
    (hprog : ∀ i r w, D.Inv w → D.Start i w → trail i w.history = [] →
      D.Finishes i (Q' i r) (X' i r) (S.program i r) w)
    {c c' : S.Config} (hc : (Config.start init).Reaches c) {ch : S.Choice}
    (hm : c.step (.perform i ch) = some c') {t : S.Thread} (ht : c'.threads[i]? = some t) :
    D.Finishes i (Q' i t.request) (X' i t.request) t.rest c'.world := by
  have hk := sound h hc
  have hk' := sound h (hc.tail hm)
  rcases Config.step_eq_some hm with ⟨r, heq, -⟩ | ⟨j, ch', r, o, k, a, w, heq, hj, he, rfl⟩ |
    ⟨x, s, heq, -, -⟩
  · cases heq
  · cases heq
    have hlt := (List.getElem?_eq_some_iff.mp hj).1
    rw [List.getElem?_set_self hlt, Option.some.injEq] at ht
    subst ht
    exact h.finishes hprog hc i _ hj rfl c.world ⟨D.refl i _, hk.inv, rfl⟩ ch a w he hk'.inv
  · cases heq

end Discipline

end SettlementOS.Computation
