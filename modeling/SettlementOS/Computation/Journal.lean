import SettlementOS.Computation.Service

/-!
# The journal of a run

What a run has written, in the order it was written, each record with the statement that wrote it:
the answers do not always tell, since a statement may be carried out and its program told
otherwise. A relation between the states before and after, and what was written in between, holds
of whole runs as soon as it holds of single statements.
-/

set_option autoImplicit false

namespace SettlementOS.Computation

namespace Service

variable {S : Service} {κ : Type}

/-- What a move writes, where `writes` says what a statement does. -/
def Config.written (writes : S.E.Stmt → S.Choice → S.State → List κ) (c : S.Config) :
    S.Move → List κ
  | .perform i ch =>
    match c.threads[i]? with
    | some ⟨_, .perform o _⟩ => writes o ch c.world.state
    | _ => []
  | _ => []

/-- What the moves of a run write. -/
def Config.journal (writes : S.E.Stmt → S.Choice → S.State → List κ) (c : S.Config) :
    List S.Move → List κ
  | [] => []
  | m :: ms => c.written writes m ++
    match c.step m with
    | some c' => c'.journal writes ms
    | none => []

variable {writes : S.E.Stmt → S.Choice → S.State → List κ} {c c' : S.Config} {m : S.Move}
  {ms : List S.Move}

/-- The journal of a run begins with what its first move has written. -/
theorem Config.journal_cons (h : c.step m = some c') :
    c.journal writes (m :: ms) = c.written writes m ++ c'.journal writes ms := by
  rw [Config.journal, h]

/-- A relation between two states and what was written in between. -/
structure Journals (U : S.E.Stmt → Prop) (writes : S.E.Stmt → S.Choice → S.State → List κ)
    (P : S.State → List κ → S.State → Prop) : Prop where
  refl : ∀ s, P s [] s
  trans : ∀ {s s' s'' l l'}, P s l s' → P s' l' s'' → P s (l ++ l') s''
  exec : ∀ {i o ch s a s'}, U o → S.exec i o ch s = some (a, s') → P s (writes o ch s) s'
  outside : ∀ {x s s'}, S.outside x s = some s' → P s [] s'

/-- What is left of each program performs only statements in `U`. -/
def Config.Performs (U : S.E.Stmt → Prop) (c : S.Config) : Prop := ∀ t ∈ c.threads, t.rest.Uses U

variable {U : S.E.Stmt → Prop} {P : S.State → List κ → S.State → Prop}

/-- One move. -/
theorem Journals.step (h : Journals U writes P) (hprog : ∀ i r, (S.program i r).Uses U)
    (hc : c.Performs U) (hm : c.step m = some c') :
    P c.world.state (c.written writes m) c'.world.state ∧ c'.Performs U := by
  rcases Config.step_eq_some hm with ⟨r, rfl, rfl⟩ | ⟨i, ch, r, o, k, a, w, rfl, hi, he, rfl⟩ |
    ⟨x, s, rfl, hs, rfl⟩
  · refine ⟨h.refl _, fun t ht => ?_⟩
    rcases List.mem_append.mp ht with ht | ht
    · exact hc t ht
    · rw [List.mem_singleton.mp ht]
      exact hprog _ r
  · obtain ⟨s, hs, rfl⟩ := World.exec_eq_some.mp he
    have huses := hc _ (List.mem_of_getElem? hi)
    have hwritten : c.written writes (.perform i ch) = writes o ch c.world.state := by
      simp only [Config.written, hi]
    rw [hwritten]
    refine ⟨h.exec huses.1 hs, fun t ht => ?_⟩
    rcases List.mem_or_eq_of_mem_set ht with ht | rfl
    · exact hc t ht
    · exact huses.2 a
  · exact ⟨h.outside hs, hc⟩

/-- **Journals.** What holds of every statement and what it writes holds of every run and its
journal. -/
theorem Journals.run (h : Journals U writes P) (hprog : ∀ i r, (S.program i r).Uses U)
    (hc : c.Performs U) (hrun : c.run ms = some c') :
    P c.world.state (c.journal writes ms) c'.world.state := by
  induction ms generalizing c with
  | nil =>
    obtain rfl := Option.some.inj hrun
    exact h.refl _
  | cons m ms ih =>
    obtain ⟨c₁, hm, hrest⟩ := Option.bind_eq_some_iff.mp hrun
    obtain ⟨hfirst, hc₁⟩ := h.step hprog hc hm
    rw [Config.journal_cons hm]
    exact h.trans hfirst (ih hc₁ hrest)

/-- Before the first request. -/
theorem Journals.run_start (h : Journals U writes P) (hprog : ∀ i r, (S.program i r).Uses U)
    {s : S.State} (hrun : (Config.start s).run ms = some c') :
    P s ((Config.start s).journal writes ms) c'.world.state :=
  h.run hprog (by simp [Config.Performs, Config.start]) hrun

end Service

end SettlementOS.Computation
