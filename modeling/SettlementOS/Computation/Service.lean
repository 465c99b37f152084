import Mathlib.Data.List.Induction
import Mathlib.Tactic.Common
import SettlementOS.Computation.Prog

/-!
# Services: programs that run interleaved

A `Service` says what each statement does to a shared state, which requests there are
and which program serves each of them. A run of the service is a list of moves: a request
arrives, one of the programs in flight performs its next statement, or the outside moves
by itself. Every interleaving of any number of requests is such a list, and since a
program in flight need never be scheduled again, so is every crash.

The outside decides what a move leaves open (whether a statement fails, what a figure
read off a chain is) by a `Choice`. Statements are answered by a function of the state
and the choice, so a run on given moves can be computed.

The *history* is the list of the statements performed so far, each with the program that
performed it and its answer, newest first.
-/

set_option autoImplicit false

namespace SettlementOS.Computation

/-- One statement performed: by the `i`-th program, and what it was answered. -/
structure Entry (E : Effects) where
  /-- which program performed it -/
  tid : ℕ
  /-- the statement -/
  stmt : E.Stmt
  /-- its answer -/
  answer : E.Answer stmt

/-- A shared state, the requests that act on it, and what their statements do. -/
structure Service where
  /-- the statements and their answers -/
  E : Effects
  /-- the shared state -/
  State : Type
  /-- what the outside decides about one statement -/
  Choice : Type
  /-- the statement `o` of program `i`: its answer and the state after it, or `none` when
  it cannot be taken with this choice now -/
  exec : ℕ → (o : E.Stmt) → Choice → State → Option (E.Answer o × State)
  /-- the moves the outside makes by itself -/
  Outside : Type
  /-- what such a move does, `none` when it is not possible now -/
  outside : Outside → State → Option State
  /-- the requests -/
  Request : Type
  /-- what a program throws -/
  Fault : Type
  /-- what a program returns -/
  Result : Type
  /-- the program that serves a request, when it is the `i`-th to arrive -/
  program : ℕ → Request → Prog E Fault Result

namespace Service

variable (S : Service)

/-- The shared state with the history that led to it. -/
structure World where
  /-- the shared state -/
  state : S.State
  /-- the statements performed, newest first -/
  history : List (Entry S.E)

variable {S}

/-- Perform the statement `o` of program `i` and enter it into the history. -/
def World.exec (w : S.World) (i : ℕ) (o : S.E.Stmt) (c : S.Choice) :
    Option (S.E.Answer o × S.World) :=
  (S.exec i o c w.state).map fun r => (r.1, ⟨r.2, ⟨i, o, r.1⟩ :: w.history⟩)

/-- A statement that was performed has entered the history. -/
theorem World.exec_eq_some {w w' : S.World} {i : ℕ} {o : S.E.Stmt} {c : S.Choice}
    {r : S.E.Answer o} :
    w.exec i o c = some (r, w') ↔
      ∃ s, S.exec i o c w.state = some (r, s) ∧ w' = ⟨s, ⟨i, o, r⟩ :: w.history⟩ := by
  unfold World.exec
  cases h : S.exec i o c w.state with
  | none => simp
  | some a =>
    obtain ⟨r', s⟩ := a
    simp only [Option.map_some, Option.some.injEq, Prod.mk.injEq]
    constructor
    · rintro ⟨rfl, rfl⟩
      exact ⟨s, ⟨rfl, rfl⟩, rfl⟩
    · rintro ⟨s', ⟨rfl, rfl⟩, rfl⟩
      exact ⟨rfl, rfl⟩

variable (S)

/-- A request in flight, or one that has ended. -/
structure Thread where
  /-- the request it serves -/
  request : S.Request
  /-- what is left of its program -/
  rest : Prog S.E S.Fault S.Result

/-- A configuration: the world and the programs that have been started, in order. -/
structure Config where
  /-- the world -/
  world : S.World
  /-- the programs, oldest first -/
  threads : List S.Thread

/-- The moves of a run. -/
inductive Move where
  /-- a request arrives -/
  | start (r : S.Request)
  /-- program `i` performs its next statement -/
  | perform (i : ℕ) (c : S.Choice)
  /-- the outside moves -/
  | outside (x : S.Outside)

variable {S}

/-- A program that has returned or thrown. -/
def Thread.ended (t : S.Thread) : Bool :=
  match t.rest with
  | .perform _ _ => false
  | _ => true

/-- A program that has thrown. -/
def Thread.threw (t : S.Thread) : Bool :=
  match t.rest with
  | .throw _ => true
  | _ => false

/-- One move. -/
def Config.step (c : S.Config) : S.Move → Option S.Config
  | .start r => some { c with threads := c.threads ++ [⟨r, S.program c.threads.length r⟩] }
  | .perform i ch =>
    match c.threads[i]? with
    | some ⟨r, .perform o k⟩ =>
      (c.world.exec i o ch).map fun a => ⟨a.2, c.threads.set i ⟨r, k a.1⟩⟩
    | _ => none
  | .outside x => (S.outside x c.world.state).map fun s => { c with world.state := s }

/-- The moves of a run, one after the other. -/
def Config.run (c : S.Config) : List S.Move → Option S.Config
  | [] => some c
  | m :: ms => (c.step m).bind fun c' => c'.run ms

/-- Before the first request. -/
def Config.start (s : S.State) : S.Config := ⟨⟨s, []⟩, []⟩

/-- Some run leads from `c` to `c'`. -/
def Config.Reaches (c c' : S.Config) : Prop := ∃ ms, c.run ms = some c'

/-- Two runs one after the other are one run. -/
theorem Config.run_append (c : S.Config) (ms ns : List S.Move) :
    c.run (ms ++ ns) = (c.run ms).bind fun c' => c'.run ns := by
  induction ms generalizing c with
  | nil => rfl
  | cons m ms ih =>
    simp only [List.cons_append, Config.run]
    cases c.step m with
    | none => rfl
    | some c' => exact ih c'

/-- The empty run. -/
theorem Config.Reaches.refl (c : S.Config) : c.Reaches c := ⟨[], rfl⟩

/-- Two runs, one after the other. -/
theorem Config.Reaches.trans {c c' c'' : S.Config} (h : c.Reaches c') (h' : c'.Reaches c'') :
    c.Reaches c'' := by
  obtain ⟨ms, hms⟩ := h
  obtain ⟨ns, hns⟩ := h'
  refine ⟨ms ++ ns, ?_⟩
  rw [Config.run_append, hms]
  exact hns

/-- One move more. -/
theorem Config.Reaches.tail {c c' c'' : S.Config} {m : S.Move} (h : c.Reaches c')
    (hm : c'.step m = some c'') : c.Reaches c'' :=
  h.trans ⟨[m], by simp [Config.run, hm]⟩

/-- What holds at the start and is kept by every move holds after every run. -/
theorem Config.Reaches.induct {c : S.Config} {P : S.Config → Prop} (hP : P c)
    (hstep : ∀ c₁ m c₂, c.Reaches c₁ → P c₁ → c₁.step m = some c₂ → P c₂) {c' : S.Config}
    (h : c.Reaches c') : P c' := by
  obtain ⟨ms, hms⟩ := h
  induction ms using List.reverseRecOn generalizing c' with
  | nil =>
    simp only [Config.run, Option.some.injEq] at hms
    exact hms ▸ hP
  | append_singleton ms m ih =>
    rw [Config.run_append, Option.bind_eq_some_iff] at hms
    obtain ⟨c₁, h₁, h₂⟩ := hms
    refine hstep c₁ m c' ⟨ms, h₁⟩ (ih h₁) ?_
    simpa [Config.run] using h₂

/-- What holds at the start and is kept by the moves of some kind holds after a run of them. -/
theorem Config.run_induct {c : S.Config} {M : S.Move → Prop} {P : S.Config → Prop} (hP : P c)
    (hstep : ∀ c₁ m c₂, M m → P c₁ → c₁.step m = some c₂ → P c₂) {ms : List S.Move}
    (hms : ∀ m ∈ ms, M m) {c' : S.Config} (h : c.run ms = some c') : P c' := by
  induction ms generalizing c with
  | nil =>
    have hc : c = c' := Option.some.inj h
    exact hc ▸ hP
  | cons m ms ih =>
    obtain ⟨c₁, h₁, h₂⟩ := Option.bind_eq_some_iff.mp h
    have hnext : P c₁ := hstep c m c₁ (hms m List.mem_cons_self) hP h₁
    exact ih hnext (fun m' hm' => hms m' (List.mem_cons_of_mem m hm')) h₂

/-- The three ways a move can go. -/
theorem Config.step_eq_some {c c' : S.Config} {m : S.Move} (h : c.step m = some c') :
    (∃ r, m = .start r ∧
      c' = { c with threads := c.threads ++ [⟨r, S.program c.threads.length r⟩] }) ∨
    (∃ i ch r o k a w, m = .perform i ch ∧ c.threads[i]? = some ⟨r, .perform o k⟩ ∧
      c.world.exec i o ch = some (a, w) ∧ c' = ⟨w, c.threads.set i ⟨r, k a⟩⟩) ∨
    (∃ x s, m = .outside x ∧ S.outside x c.world.state = some s ∧
      c' = { c with world.state := s }) := by
  cases m with
  | start r =>
    simp only [Config.step, Option.some.injEq] at h
    exact .inl ⟨r, rfl, h.symm⟩
  | perform i ch =>
    simp only [Config.step] at h
    split at h
    · rename_i r o k hi
      simp only [Option.map_eq_some_iff] at h
      obtain ⟨⟨a, w⟩, he, rfl⟩ := h
      exact .inr (.inl ⟨i, ch, r, o, k, a, w, rfl, hi, he, rfl⟩)
    · cases h
  | outside x =>
    simp only [Config.step, Option.map_eq_some_iff] at h
    obtain ⟨s, hs, rfl⟩ := h
    exact .inr (.inr ⟨x, s, rfl, hs, rfl⟩)

/-- A program goes on serving the request it was started for. -/
theorem Config.request_of_step {c c' : S.Config} {m : S.Move} {i : ℕ} {t : S.Thread}
    (hm : c.step m = some c') (ht : c.threads[i]? = some t) :
    ∃ t', c'.threads[i]? = some t' ∧ t'.request = t.request := by
  have hlt := (List.getElem?_eq_some_iff.mp ht).1
  rcases Config.step_eq_some hm with ⟨r, -, rfl⟩ | ⟨j, ch, r, o, k, a, w, -, hj, -, rfl⟩ |
    ⟨x, s, -, -, rfl⟩
  · exact ⟨t, by rw [List.getElem?_append_left hlt]; exact ht, rfl⟩
  · by_cases hij : j = i
    · subst hij
      obtain rfl := Option.some.inj (hj.symm.trans ht)
      exact ⟨_, List.getElem?_set_self hlt, rfl⟩
    · exact ⟨t, by rw [List.getElem?_set_ne hij]; exact ht, rfl⟩
  · exact ⟨t, ht, rfl⟩

/-- The history only grows. -/
theorem Config.Reaches.history {c c' : S.Config} (h : c.Reaches c') :
    c.world.history <:+ c'.world.history := by
  refine h.induct (P := fun c' => c.world.history <:+ c'.world.history) (List.suffix_refl _) ?_
  intro c₁ m c₂ _ hp hm
  rcases Config.step_eq_some hm with ⟨r, -, rfl⟩ | ⟨i, ch, r, o, k, a, w, -, -, he, rfl⟩ |
    ⟨x, s, -, -, rfl⟩
  · exact hp
  · obtain ⟨s, -, rfl⟩ := World.exec_eq_some.mp he
    exact hp.trans (List.suffix_cons _ _)
  · exact hp

/-- What a run has to do with the statements the programs may perform: a program in flight has
performed such statements, and what is left of it performs no others. -/
structure Confined (U : S.E.Stmt → Prop) (A : S.Request → Prop) (c : S.Config) : Prop where
  rest : ∀ i t, c.threads[i]? = some t → A t.request → t.rest.Uses U ∧
    ∀ e ∈ c.world.history, e.tid = i → U e.stmt
  known : ∀ e ∈ c.world.history, e.tid < c.threads.length

/-- **Frame.** If the requests in `A` are served by programs that perform only statements in `U`,
then along every run they have performed no others. -/
theorem Config.Reaches.confined {U : S.E.Stmt → Prop} {A : S.Request → Prop}
    (hprog : ∀ i r, A r → (S.program i r).Uses U) {s : S.State} {c : S.Config}
    (h : (Config.start s).Reaches c) : Confined U A c := by
  refine h.induct ⟨by simp [Config.start], by simp [Config.start]⟩ ?_
  intro c₁ m c₂ _ hp hm
  rcases Config.step_eq_some hm with ⟨r, -, rfl⟩ | ⟨i, ch, r, o, k, a, w, -, hi, he, rfl⟩ |
    ⟨x, s, -, -, rfl⟩
  · refine ⟨fun i t ht hA => ?_, fun e he => ?_⟩
    · by_cases hlt : i < c₁.threads.length
      · rw [List.getElem?_append_left hlt] at ht
        exact hp.rest i t ht hA
      · -- the program that has just arrived has performed nothing
        have hi : i = c₁.threads.length := by
          have := (List.getElem?_eq_some_iff.mp ht).1
          simp only [List.length_append, List.length_singleton] at this
          omega
        subst hi
        simp only [List.getElem?_append_right (Nat.le_refl _), Nat.sub_self,
          List.getElem?_cons_zero, Option.some.injEq] at ht
        subst ht
        exact ⟨hprog _ r hA, fun e he htid => absurd (hp.known e he) (by omega)⟩
    · have := hp.known e he
      simp only [List.length_append, List.length_singleton]
      omega
  · obtain ⟨s, -, rfl⟩ := World.exec_eq_some.mp he
    have hlt := (List.getElem?_eq_some_iff.mp hi).1
    refine ⟨fun j t ht hA => ?_, fun e he => ?_⟩
    · by_cases hij : j = i
      · subst hij
        rw [List.getElem?_set_self hlt, Option.some.injEq] at ht
        subst ht
        obtain ⟨huses, hdone⟩ := hp.rest j _ hi hA
        refine ⟨huses.2 a, fun e he htid => ?_⟩
        rcases List.mem_cons.mp he with rfl | hmem
        · exact huses.1
        · exact hdone e hmem htid
      · rw [List.getElem?_set_ne (Ne.symm hij)] at ht
        obtain ⟨huses, hdone⟩ := hp.rest j t ht hA
        refine ⟨huses, fun e he htid => ?_⟩
        rcases List.mem_cons.mp he with rfl | hmem
        · exact absurd htid.symm hij
        · exact hdone e hmem htid
    · rw [List.length_set]
      rcases List.mem_cons.mp he with rfl | hmem
      · exact hlt
      · exact hp.known e hmem
  · exact ⟨hp.rest, hp.known⟩

end Service

end SettlementOS.Computation
