import SettlementOS.Computation.Service

/-!
# Runs whose steps meet a condition

A `Guard` says which statements and which moves of the outside meet a condition, given the
world before them. `Config.Along g` are the runs all of whose steps meet it. The guarded
service takes no other step: its shared state is the whole world of the service it
restricts, so that a discipline on it may use the guard as a fact about every step, and
`Config.Along.guarded` carries what it proves back to the runs along the guard.
-/

set_option autoImplicit false

namespace SettlementOS.Computation

namespace Service

/-- A condition on the steps of a run. -/
structure Guard (S : Service) where
  /-- the statement a program performs -/
  stmt : ℕ → S.E.Stmt → S.Choice → S.World → Bool := fun _ _ _ _ => true
  /-- a move of the outside -/
  outside : S.Outside → S.World → Bool := fun _ _ => true

variable {S : Service}

/-- Whether a move meets the condition. -/
def Guard.allows (g : Guard S) (c : S.Config) : S.Move → Bool
  | .start _ => true
  | .perform i ch =>
    match c.threads[i]? with
    | some ⟨_, .perform o _⟩ => g.stmt i o ch c.world
    | _ => true
  | .outside x => g.outside x c.world

/-- Some run all of whose steps meet the condition leads from `c` to `c'`. -/
inductive Config.Along (g : Guard S) (c : S.Config) : S.Config → Prop where
  | refl : Config.Along g c c
  | tail {c₁ c₂ : S.Config} {m : S.Move} (h : Config.Along g c c₁) (hg : g.allows c₁ m = true)
      (hstep : c₁.step m = some c₂) : Config.Along g c c₂

/-- Such a run is a run. -/
theorem Config.Along.reaches {g : Guard S} {c c' : S.Config} (h : c.Along g c') : c.Reaches c' := by
  induction h with
  | refl => exact Config.Reaches.refl c
  | tail _ _ hstep ih => exact ih.tail hstep

/-- The moves of a run, each of which meets the condition. -/
def Config.runAlong (g : Guard S) (c : S.Config) : List S.Move → Option S.Config
  | [] => some c
  | m :: ms => if g.allows c m then (c.step m).bind fun c' => c'.runAlong g ms else none

/-- Along one stretch and along the next is along both. -/
theorem Config.Along.trans {g : Guard S} {c c' c'' : S.Config} (h : c.Along g c')
    (h' : c'.Along g c'') : c.Along g c'' := by
  induction h' with
  | refl => exact h
  | tail _ hg hstep ih => exact ih.tail hg hstep

/-- A guarded run leads along its guard. -/
theorem Config.Along.of_runAlong {g : Guard S} {c c' : S.Config} {ms : List S.Move}
    (h : c.runAlong g ms = some c') : c.Along g c' := by
  induction ms generalizing c with
  | nil =>
    cases h
    exact .refl
  | cons m ms ih =>
    unfold Config.runAlong at h
    split at h
    next hg =>
      obtain ⟨c₁, hstep, hrest⟩ := Option.bind_eq_some_iff.mp h
      exact (Config.Along.tail .refl hg hstep).trans (ih hrest)
    next => cases h

/-- A run along the guard that ends as `P` says. -/
theorem Config.Along.of_any {g : Guard S} {c : S.Config} (ms : List S.Move) {P : S.Config → Bool}
    (h : (c.runAlong g ms).any P = true) : ∃ c', c.Along g c' ∧ P c' = true := by
  obtain ⟨c', hc', hP⟩ := (Option.any_eq_true _ _).mp h
  exact ⟨c', of_runAlong hc', hP⟩

/-- A run that ends as `P` says. -/
theorem Config.Reaches.of_any {c : S.Config} (ms : List S.Move) {P : S.Config → Bool}
    (h : (c.run ms).any P = true) : ∃ c', c.Reaches c' ∧ P c' = true := by
  obtain ⟨c', hc', hP⟩ := (Option.any_eq_true _ _).mp h
  exact ⟨c', ⟨ms, hc'⟩, hP⟩

/-- The service that takes only the steps that meet the condition. -/
@[reducible] def guarded (S : Service) (g : Guard S) : Service where
  E := S.E
  State := S.World
  Choice := S.Choice
  exec i o ch w := if g.stmt i o ch w then w.exec i o ch else none
  Outside := S.Outside
  outside x w :=
    if g.outside x w then (S.outside x w.state).map fun s => { w with state := s } else none
  Request := S.Request
  Fault := S.Fault
  Result := S.Result
  program := S.program

/-- What a statement of the guarded service does: it meets the condition and is a statement of the
service it restricts. -/
theorem guarded_exec {g : Guard S} {w w' : (S.guarded g).World} {i : ℕ} {o : S.E.Stmt}
    {ch : S.Choice} {a : S.E.Answer o}
    (h : World.exec (S := S.guarded g) w i o ch = some (a, w')) :
    g.stmt i o ch w.state = true ∧ w.state.exec i o ch = some (a, w'.state) := by
  obtain ⟨s, hs, rfl⟩ := World.exec_eq_some.mp h
  change (if g.stmt i o ch w.state = true then w.state.exec i o ch else none) = some (a, s) at hs
  split at hs
  next hg => exact ⟨hg, hs⟩
  next => cases hs

/-- A move of the outside that the guarded service takes. -/
theorem guarded_outside {g : Guard S} {x : S.Outside} {w w' : S.World}
    (h : (S.guarded g).outside x w = some w') :
    g.outside x w = true ∧ ∃ s, S.outside x w.state = some s ∧ w' = { w with state := s } := by
  change (if g.outside x w = true then _ else none) = some w' at h
  split at h
  next hg =>
    obtain ⟨s, hs, rfl⟩ := Option.map_eq_some_iff.mp h
    exact ⟨hg, s, hs, rfl⟩
  next => cases h

/-- A configuration of the service as one of the guarded service. -/
def Config.lift (g : Guard S) (c : S.Config) : (S.guarded g).Config where
  world := ⟨c.world, c.world.history⟩
  threads := c.threads.map fun t => ⟨t.request, t.rest⟩

/-- A step that meets the condition is a step of the guarded service. -/
theorem Config.lift_step {g : Guard S} {c c' : S.Config} {m : S.Move} (hg : g.allows c m = true)
    (h : c.step m = some c') :
    ∃ m' : (S.guarded g).Move, (c.lift g).step m' = some (c'.lift g) := by
  rcases Config.step_eq_some h with ⟨r, rfl, rfl⟩ | ⟨i, ch, r, o, k, a, w, rfl, hi, he, rfl⟩ |
    ⟨x, s, rfl, hs, rfl⟩
  · refine ⟨.start r, ?_⟩
    unfold Config.step Config.lift
    simp only [List.length_map, List.map_append, List.map_cons, List.map_nil]
  · refine ⟨.perform i ch, ?_⟩
    have hg : g.stmt i o ch c.world = true := by
      unfold Guard.allows at hg
      simp only [hi] at hg
      exact hg
    have hi' : (c.lift g).threads[i]? = some ⟨r, .perform o k⟩ := by
      unfold Config.lift
      rw [List.getElem?_map, hi]
      rfl
    have he' : (c.lift g).world.exec i o ch = some (a, ⟨w, w.history⟩) := by
      obtain ⟨s, hs, rfl⟩ := World.exec_eq_some.mp he
      apply World.exec_eq_some.mpr
      refine ⟨_, ?_, rfl⟩
      show (if g.stmt i o ch c.world then c.world.exec i o ch else none) = _
      rw [if_pos hg]
      exact he
    unfold Config.step
    simp only [hi']
    rw [he']
    unfold Config.lift
    simp only [Option.map_some, List.map_set]
  · refine ⟨.outside x, ?_⟩
    have hg : g.outside x c.world = true := hg
    show ((S.guarded g).outside x (c.lift g).world.state).map _ = _
    have : (S.guarded g).outside x (c.lift g).world.state = some { c.world with state := s } := by
      show (if g.outside x c.world then (S.outside x c.world.state).map fun s =>
        { c.world with state := s } else none) = _
      rw [if_pos hg, hs]
      rfl
    rw [this]
    rfl

/-- What a run along the guard reaches, the guarded service reaches. -/
theorem Config.Along.guarded {g : Guard S} {s : S.State} {c : S.Config}
    (h : (Config.start s : S.Config).Along g c) :
    (Config.start ⟨s, []⟩ : (S.guarded g).Config).Reaches (c.lift g) := by
  induction h with
  | refl => exact Config.Reaches.refl _
  | tail _ hg hstep ih =>
    obtain ⟨m', hm'⟩ := Config.lift_step hg hstep
    exact ih.tail hm'

end Service

end SettlementOS.Computation
