import SettlementOS.Computation.Service

/-!
# What comes about by itself

`Config.Inevitable M P` says that moves of the kind `M` lead to `P` whatever they are: as long as
`P` does not hold some such move is possible, and there is no going on forever without it.

`Returns` says it of one program that nobody but the outside interrupts. It is put together along
the program's own structure; a single statement needs an assertion that the outside keeps, and a
measure of how much the outside can still do.
-/

set_option autoImplicit false

namespace SettlementOS.Computation

namespace Service

variable {S : Service}

/-- Moves of the kind `M` lead to `P`. -/
inductive Config.Inevitable (M : S.Move → Prop) (P : S.Config → Prop) : S.Config → Prop
  | here {c : S.Config} : P c → Inevitable M P c
  | later {c : S.Config} : (∃ m c', M m ∧ c.step m = some c') →
      (∀ m c', M m → c.step m = some c' → Inevitable M P c') → Inevitable M P c

/-- What the moves lead to is reached by them. -/
theorem Config.Inevitable.reaching {M : S.Move → Prop} {P : S.Config → Prop} {c₀ c : S.Config}
    (h : c.Inevitable M P) (hc : c₀.Reaches c) : c.Inevitable M fun c' => P c' ∧ c₀.Reaches c' := by
  induction h with
  | here hP => exact .here ⟨hP, hc⟩
  | later hcan _ ih => exact .later hcan fun m c' hm hstep => ih m c' hm hstep (hc.tail hstep)

/-- What is inevitable brings about what follows from it. -/
theorem Config.Inevitable.mono {M : S.Move → Prop} {P Q : S.Config → Prop} {c : S.Config}
    (h : c.Inevitable M P) (hPQ : ∀ c', P c' → Q c') : c.Inevitable M Q := by
  induction h with
  | here hP => exact .here (hPQ _ hP)
  | later hcan _ ih => exact .later hcan ih

/-- Program `i` and the outside move, and nobody else; the choices are in `G`, and what the outside
does in `O`. -/
def Lone (i : ℕ) (G : S.Choice → Prop) (O : S.Outside → Prop) : S.Move → Prop
  | .perform j c => j = i ∧ G c
  | .outside x => O x
  | .start _ => False

variable {i : ℕ} {G : S.Choice → Prop} {O : S.Outside → Prop} {ε ε' α β : Type}

/-- Something can be done about a statement: it is performed, or the outside moves. -/
def Goes (i : ℕ) (G : S.Choice → Prop) (O : S.Outside → Prop) (o : S.E.Stmt) (s : S.State) : Prop :=
  (∃ c r, G c ∧ S.exec i o c s = some r) ∨ ∃ x s', O x ∧ S.outside x s = some s'

/-- Alone with the outside, the program returns, and as `Q` says. -/
inductive Returns (i : ℕ) (G : S.Choice → Prop) (O : S.Outside → Prop)
    (Q : α → S.State → Prop) : Prog S.E ε α → S.State → Prop
  | ret {a : α} {s : S.State} : Q a s → Returns i G O Q (.ret a) s
  | perform {o : S.E.Stmt} {k : S.E.Answer o → Prog S.E ε α} {s : S.State} :
      Goes i G O o s →
      (∀ c a s', G c → S.exec i o c s = some (a, s') → Returns i G O Q (k a) s') →
      (∀ x s', O x → S.outside x s = some s' → Returns i G O Q (.perform o k) s') →
      Returns i G O Q (.perform o k) s

namespace Returns

variable {Q T : α → S.State → Prop} {R : β → S.State → Prop} {p : Prog S.E ε α} {s : S.State}

/-- What is returned may be weakened. -/
theorem mono (h : Returns i G O Q p s) (hQ : ∀ a s, Q a s → T a s) : Returns i G O T p s := by
  induction h with
  | ret hret => exact .ret (hQ _ _ hret)
  | perform hgoes _ _ ihnext ihoutside => exact .perform hgoes ihnext ihoutside

/-- A program that returns goes on with what it has returned. -/
theorem bind {f : α → Prog S.E ε β} (h : Returns i G O (fun a s => Returns i G O R (f a) s) p s) :
    Returns i G O R (p.bind f) s := by
  induction h with
  | ret hret => exact hret
  | perform hgoes _ _ ihnext ihoutside => exact .perform hgoes ihnext ihoutside

/-- A program that returns needs no handler. -/
theorem handle {g : ε → Prog S.E ε' α} (h : Returns i G O Q p s) :
    Returns i G O Q (p.handle g) s := by
  induction h with
  | ret hret => exact .ret hret
  | perform hgoes _ _ ihnext ihoutside => exact .perform hgoes ihnext ihoutside

/-- A program that returns has no error to be pardoned. -/
theorem ignoring {R : Unit → S.State → Prop} (h : Returns i G O (fun _ s => R () s) p s) :
    Returns i G O R (p.ignoring : Prog S.E ε' Unit) s :=
  (h.mono fun _ _ hR => .ret hR).bind.handle

/-- What is to be done finally is done after the value. -/
theorem andFinally {f : Prog S.E ε Unit}
    (h : Returns i G O (fun a s => Returns i G O (fun _ s => Q a s) f s) p s) :
    Returns i G O Q (p.andFinally f) s := by
  refine bind (handle (bind (h.mono fun a s hf => ?_)))
  exact .ret (hf.mono fun _ _ hQ => .ret hQ).bind

/-- An outcome that is a value is returned. -/
theorem ofExcept {x : Except ε α} {a : α} (hx : x = .ok a) (hQ : Q a s) :
    Returns i G O Q (Prog.ofExcept x) s := by
  rw [hx]
  exact .ret hQ

/-- A statement: while the outside can still do something, it keeps `I`, and from wherever `I` holds
the statement leads on. -/
theorem stable {o : S.E.Stmt} {k : S.E.Answer o → Prog S.E ε α} (left : S.State → ℕ)
    (hleft : ∀ x s s', O x → S.outside x s = some s' → left s' < left s) {I : S.State → Prop}
    (hI : ∀ x s s', O x → I s → S.outside x s = some s' → I s')
    (hgoes : ∀ s, I s → Goes i G O o s)
    (hnext : ∀ s c a s', I s → G c → S.exec i o c s = some (a, s') → Returns i G O Q (k a) s')
    (hs : I s) : Returns i G O Q (.perform o k) s := by
  induction hn : left s using Nat.strongRecOn generalizing s with
  | ind n ih =>
    refine .perform (hgoes s hs) (fun c a s' hc he => hnext s c a s' hs hc he) fun x s' hx ho => ?_
    exact ih (left s') (hn ▸ hleft x s s' hx ho) (hI x s s' hx hs ho) rfl

/-- A program that returns, alone with the outside, inevitably has. -/
theorem inevitable {Q : S.Result → S.State → Prop} {p : Prog S.E S.Fault S.Result} {s : S.State}
    (h : Returns i G O Q p s) {c : S.Config} {r : S.Request} (hi : c.threads[i]? = some ⟨r, p⟩)
    (hs : c.world.state = s) :
    c.Inevitable (Lone i G O) fun c' =>
      ∃ a, c'.threads[i]? = some ⟨r, .ret a⟩ ∧ Q a c'.world.state := by
  induction h generalizing c with
  | @ret a s hret => exact .here ⟨a, hi, hs ▸ hret⟩
  | @perform o k s hgoes _ _ ihnext ihoutside =>
    subst hs
    refine .later ?_ fun m c' hm hstep => ?_
    · rcases hgoes with ⟨ch, ⟨a, s'⟩, hch, he⟩ | ⟨x, s', hx, ho⟩
      · refine ⟨.perform i ch, ⟨⟨s', ⟨i, o, a⟩ :: c.world.history⟩, c.threads.set i ⟨r, k a⟩⟩,
          ⟨rfl, hch⟩, ?_⟩
        simp only [Config.step, hi, World.exec, he, Option.map_some]
      · refine ⟨.outside x, { c with world.state := s' }, hx, ?_⟩
        simp only [Config.step, ho, Option.map_some]
    · rcases Config.step_eq_some hstep with ⟨r', rfl, -⟩ |
        ⟨j, ch, r', o', k', a, w, rfl, hj, he, rfl⟩ | ⟨x, s', rfl, ho, rfl⟩
      · exact hm.elim
      · obtain ⟨rfl, hch⟩ := hm
        obtain ⟨rfl, hrest⟩ := Thread.mk.inj (Option.some.inj (hi.symm.trans hj))
        cases hrest
        obtain ⟨s', hexec, rfl⟩ := World.exec_eq_some.mp he
        exact ihnext ch a s' hch hexec
          (List.getElem?_set_self (List.getElem?_eq_some_iff.mp hi).1) rfl
      · exact ihoutside x s' hm ho hi rfl

end Returns

end Service

end SettlementOS.Computation
