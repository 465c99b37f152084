import SettlementOS.Computation.Service

/-!
# What a program does along its own trail

The *trail* of a program is what it has performed itself, each statement with its answer,
newest first. A `Law` says what may follow a trail. Whether a program keeps a law does not
depend on what the others do meanwhile, so it is shown along the program's text alone:
`Law.Keeps` has the rules of a Hoare logic whose assertions are about the trail, with no
side conditions on interference.

`Config.Reaches.keeps` carries a law over to the runs of a service, and
`Config.Reaches.at_entry` goes back from an entry of the history to the step that made it.
Together they turn a fact about one program's text into one about every run: an entry obeys
the law of its program, and what the law says was answered before was true when it was.
-/

set_option autoImplicit false

namespace SettlementOS.Computation

/-- A statement and what it was answered. -/
structure Event (E : Effects) where
  /-- the statement -/
  stmt : E.Stmt
  /-- its answer -/
  answer : E.Answer stmt

/-- What a program may perform after what it has performed. -/
structure Law (E : Effects) where
  /-- the answers a statement may get -/
  Answers : (o : E.Stmt) → E.Answer o → Prop
  /-- what may follow a trail -/
  Allows : List (Event E) → Event E → Prop

namespace Law

variable {E : Effects} {ε ε' α β : Type} (L : Law E)

/-- Everything on the trail was allowed when it was performed. -/
def Obeyed : List (Event E) → Prop
  | [] => True
  | e :: past => L.Allows past e ∧ Obeyed past

/-- After the trail `past`, the program performs only what is allowed, and ends in `Q` when it
returns and in `X` when it throws. -/
def Keeps (Q : α → List (Event E) → Prop) (X : ε → List (Event E) → Prop) :
    Prog E ε α → List (Event E) → Prop
  | .ret a, past => Q a past
  | .throw e, past => X e past
  | .perform o k, past => ∀ r, L.Answers o r →
      L.Allows past ⟨o, r⟩ ∧ Keeps Q X (k r) (⟨o, r⟩ :: past)

variable {L}
variable {Q Q' : α → List (Event E) → Prop} {X X' : ε → List (Event E) → Prop}
variable {past : List (Event E)}

/-- What is on an obeyed trail was allowed after what came before it. -/
theorem Obeyed.allows {l : List (Event E)} {e : Event E} (h : L.Obeyed (l ++ e :: past)) :
    L.Allows past e := by
  induction l with
  | nil => exact h.1
  | cons e' l ih => exact ih h.2

/-- What obeyed a law obeyed it before. -/
theorem Obeyed.tail {l : List (Event E)} (h : L.Obeyed (l ++ past)) : L.Obeyed past := by
  induction l with
  | nil => exact h
  | cons e l ih => exact ih h.2

/-- Weaker postconditions. -/
theorem keeps_mono {p : Prog E ε α} (h : L.Keeps Q X p past)
    (hQ : ∀ a past, Q a past → Q' a past) (hX : ∀ e past, X e past → X' e past) :
    L.Keeps Q' X' p past := by
  induction p generalizing past with
  | ret a => exact hQ a past h
  | throw e => exact hX e past h
  | perform o k ih =>
    intro r hr
    obtain ⟨hallows, hrest⟩ := h r hr
    exact ⟨hallows, ih r hrest⟩

/-- Sequencing. -/
theorem keeps_bind {Q : β → List (Event E) → Prop} {p : Prog E ε α} {f : α → Prog E ε β}
    (h : L.Keeps (fun a past => L.Keeps Q X (f a) past) X p past) :
    L.Keeps Q X (p.bind f) past := by
  induction p generalizing past with
  | ret a => exact h
  | throw e => exact h
  | perform o k ih =>
    intro r hr
    obtain ⟨hallows, hrest⟩ := h r hr
    exact ⟨hallows, ih r hrest⟩

/-- `try`/`catch`. -/
theorem keeps_handle {X : ε' → List (Event E) → Prop} {p : Prog E ε α} {g : ε → Prog E ε' α}
    (h : L.Keeps Q (fun e past => L.Keeps Q X (g e) past) p past) :
    L.Keeps Q X (p.handle g) past := by
  induction p generalizing past with
  | ret a => exact h
  | throw e => exact h
  | perform o k ih =>
    intro r hr
    obtain ⟨hallows, hrest⟩ := h r hr
    exact ⟨hallows, ih r hrest⟩

/-- A known value. -/
theorem keeps_ofExcept {x : Except ε α} (hok : ∀ a, x = .ok a → Q a past)
    (herr : ∀ e, x = .error e → X e past) : L.Keeps Q X (.ofExcept x) past := by
  cases x with
  | ok a => exact hok a rfl
  | error e => exact herr e rfl

/-- Handing a fault on together with a value. -/
theorem keeps_keeping {χ : Type} {x : χ} {X : ε × χ → List (Event E) → Prop}
    {p : Prog E ε α} (h : L.Keeps Q (fun e => X (e, x)) p past) :
    L.Keeps Q X (p.keeping x) past :=
  keeps_handle h

/-- `finally`: the cleanup runs from wherever `p` ended. -/
theorem keeps_andFinally {p : Prog E ε α} {f : Prog E ε Unit}
    (h : L.Keeps (fun a => L.Keeps (fun _ => Q a) X f) (fun e => L.Keeps (fun _ => X e) X f) p
      past) : L.Keeps Q X (p.andFinally f) past := by
  refine keeps_bind (keeps_handle (keeps_bind (keeps_mono h ?_ ?_)))
  · intro a past ha
    exact keeps_bind (keeps_mono ha (fun _ _ hq => hq) fun _ _ hx => hx)
  · intro e past he
    exact keeps_bind (keeps_mono he (fun _ _ hx => hx) fun _ _ hx => hx)

/-- A program all of whose statements are allowed wherever `P` holds, and keep `P`, keeps it. -/
theorem keeps_of_uses {U : E.Stmt → Prop} {P : List (Event E) → Prop}
    (ho : ∀ past o r, U o → P past → L.Answers o r → L.Allows past ⟨o, r⟩ ∧ P (⟨o, r⟩ :: past))
    {p : Prog E ε α} (hp : p.Uses U) (hw : P past) :
    L.Keeps (fun _ => P) (fun _ => P) p past := by
  induction p generalizing past with
  | ret a => exact hw
  | throw e => exact hw
  | perform o k ih =>
    intro r hr
    obtain ⟨hallows, hP⟩ := ho past o r hp.1 hw hr
    exact ⟨hallows, ih r (hp.2 r) hP⟩

/-- A program of which nothing is known keeps what every statement keeps. -/
theorem keeps_of_forall {P : List (Event E) → Prop}
    (ho : ∀ past o r, P past → L.Answers o r → L.Allows past ⟨o, r⟩ ∧ P (⟨o, r⟩ :: past))
    (p : Prog E ε α) (hw : P past) : L.Keeps (fun _ => P) (fun _ => P) p past := by
  induction p generalizing past with
  | ret a => exact hw
  | throw e => exact hw
  | perform o k ih =>
    intro r hr
    obtain ⟨hallows, hP⟩ := ho past o r hw hr
    exact ⟨hallows, ih r hP⟩

/-- Sequencing, by what holds in between. -/
theorem keeps_seq {Q : β → List (Event E) → Prop} {Q' : α → List (Event E) → Prop}
    {p : Prog E ε α} {f : α → Prog E ε β} (hp : L.Keeps Q' X p past)
    (hf : ∀ a past, Q' a past → L.Keeps Q X (f a) past) : L.Keeps Q X (p.bind f) past :=
  keeps_bind (keeps_mono hp hf fun _ _ hx => hx)

/-- `try`/`catch`, by what is known where the first part throws. -/
theorem keeps_catch {X : ε' → List (Event E) → Prop} {Y : ε → List (Event E) → Prop}
    {p : Prog E ε α} {g : ε → Prog E ε' α} (hp : L.Keeps Q Y p past)
    (hg : ∀ e past, Y e past → L.Keeps Q X (g e) past) : L.Keeps Q X (p.handle g) past :=
  keeps_handle (keeps_mono hp (fun _ _ hq => hq) hg)

/-- What follows does not depend on how the first part went. -/
theorem keeps_bind_of_forall {Q' : β → List (Event E) → Prop} {p : Prog E ε α}
    {f : α → Prog E ε β} (hp : L.Keeps (fun _ _ => True) X p past)
    (hf : ∀ a past, L.Keeps Q' X (f a) past) : L.Keeps Q' X (p.bind f) past :=
  keeps_bind (keeps_mono hp (fun a past _ => hf a past) fun _ _ hx => hx)

/-- **A law of the finer statements.** `R` ties what has been performed coarsely to what has been
performed for it. If the program that carries out each statement the coarse law allows keeps the
fine law, and `R`, then an interpretation keeps the fine law where its program keeps the coarse
one. -/
theorem keeps_interpret {E' : Effects} {L' : Law E'} {f : ∀ o : E.Stmt, Prog E' Empty (E.Answer o)}
    {R : List (Event E) → List (Event E') → Prop}
    (hf : ∀ o past past', R past past' → (∀ r, L.Answers o r → L.Allows past ⟨o, r⟩) →
      L'.Keeps (fun r later => L.Answers o r ∧ R (⟨o, r⟩ :: past) later) (fun e _ => e.elim)
        (f o) past')
    {p : Prog E ε α} {past' : List (Event E')} (h : L.Keeps Q X p past) (hR : R past past') :
    L'.Keeps (fun a later => ∃ past, Q a past ∧ R past later)
      (fun e later => ∃ past, X e past ∧ R past later) (p.interpret f) past' := by
  induction p generalizing past past' with
  | ret a => exact ⟨past, h, hR⟩
  | throw e => exact ⟨past, h, hR⟩
  | perform o k ih =>
    have hcarried := hf o past past' hR fun r hr => (h r hr).1
    refine keeps_bind (keeps_handle (keeps_mono hcarried ?_ fun e _ _ => e.elim))
    rintro r later ⟨hanswers, hR'⟩
    exact ih r (h r hanswers).2 hR'

end Law

/-! ## Trails in runs -/

namespace Service

/-- The trail of program `i` in a history. -/
def trail {E : Effects} (i : ℕ) : List (Entry E) → List (Event E)
  | [] => []
  | e :: h => if e.tid = i then ⟨e.stmt, e.answer⟩ :: trail i h else trail i h

variable {E : Effects} {i : ℕ} {e : Entry E} {h : List (Entry E)}

/-- A program's own entry goes on its trail. -/
theorem trail_own (he : e.tid = i) : trail i (e :: h) = ⟨e.stmt, e.answer⟩ :: trail i h :=
  if_pos he

/-- Another program's entry does not. -/
theorem trail_other (he : e.tid ≠ i) : trail i (e :: h) = trail i h := if_neg he

/-- The trail of two stretches is that of each. -/
theorem trail_append (l : List (Entry E)) : trail i (l ++ h) = trail i l ++ trail i h := by
  induction l with
  | nil => rfl
  | cons e l ih =>
    by_cases he : e.tid = i
    · rw [List.cons_append, trail_own he, trail_own he, ih]
      rfl
    · rw [List.cons_append, trail_other he, trail_other he, ih]

/-- What is on a trail is in the history. -/
theorem mem_of_trail {x : Event E} (hx : x ∈ trail i h) : ⟨i, x.stmt, x.answer⟩ ∈ h := by
  induction h with
  | nil => cases hx
  | cons e h ih =>
    by_cases he : e.tid = i
    · rw [trail_own he] at hx
      rcases List.mem_cons.mp hx with rfl | hx
      · subst he
        exact List.mem_cons_self
      · exact List.mem_cons_of_mem _ (ih hx)
    · rw [trail_other he] at hx
      exact List.mem_cons_of_mem _ (ih hx)

/-- What a program performed is on its trail. -/
theorem mem_own_trail (he : e ∈ h) : (⟨e.stmt, e.answer⟩ : Event E) ∈ trail e.tid h := by
  obtain ⟨later, past, rfl⟩ := List.append_of_mem he
  rw [trail_append, trail_own rfl]
  exact List.mem_append_right _ List.mem_cons_self

/-- The newest element of a trail, in the history: whatever came since is of other programs. -/
theorem trail_eq_cons {x : Event E} {rest : List (Event E)} (hx : trail i h = x :: rest) :
    ∃ since past, h = since ++ ⟨i, x.stmt, x.answer⟩ :: past ∧ trail i past = rest ∧
      ∀ e ∈ since, e.tid ≠ i := by
  induction h with
  | nil => cases hx
  | cons e h ih =>
    by_cases he : e.tid = i
    · rw [trail_own he, List.cons.injEq] at hx
      obtain ⟨rfl, hrest⟩ := hx
      subst he
      exact ⟨[], h, rfl, hrest, by simp⟩
    · rw [trail_other he] at hx
      obtain ⟨since, past, rfl, hrest, hsince⟩ := ih hx
      refine ⟨e :: since, past, rfl, hrest, fun e' he' => ?_⟩
      rcases List.mem_cons.mp he' with rfl | he'
      · exact he
      · exact hsince e' he'

/-- Any element of a trail, in the history. -/
theorem trail_eq_append {x : Event E} {since rest : List (Event E)}
    (hx : trail i h = since ++ x :: rest) :
    ∃ later past, h = later ++ ⟨i, x.stmt, x.answer⟩ :: past ∧ trail i past = rest := by
  induction since generalizing h with
  | nil =>
    obtain ⟨later, past, hh, hrest, -⟩ := trail_eq_cons hx
    exact ⟨later, past, hh, hrest⟩
  | cons y since ih =>
    obtain ⟨later, past, rfl, hrest, -⟩ := trail_eq_cons hx
    obtain ⟨later', past', rfl, hrest'⟩ := ih hrest
    exact ⟨later ++ ⟨i, y.stmt, y.answer⟩ :: later', past', by simp, hrest'⟩

/-- The last element of a list that has grown by one. -/
theorem getElem?_concat_last {α : Type} {l : List α} {a b : α} {i : ℕ} (hlt : ¬ i < l.length)
    (hi : (l ++ [a])[i]? = some b) : l.length = i ∧ a = b := by
  have hle : i < (l ++ [a]).length := (List.getElem?_eq_some_iff.mp hi).1
  rw [List.length_append, List.length_singleton] at hle
  have heq : l.length = i := by omega
  subst heq
  rw [List.getElem?_concat_length, Option.some.injEq] at hi
  exact ⟨rfl, hi⟩

variable {S : Service}

/-- What a run has to do with the laws of its programs. -/
structure Lawful (L : ℕ → S.Request → Law S.E)
    (Q : ℕ → S.Request → S.Result → List (Event S.E) → Prop)
    (X : ℕ → S.Request → S.Fault → List (Event S.E) → Prop) (c : S.Config) : Prop where
  keeps : ∀ i t, c.threads[i]? = some t →
    (L i t.request).Keeps (Q i t.request) (X i t.request) t.rest (trail i c.world.history)
  obeyed : ∀ i t, c.threads[i]? = some t → (L i t.request).Obeyed (trail i c.world.history)
  known : ∀ e ∈ c.world.history, e.tid < c.threads.length

/-- A program that has not arrived has no trail. -/
theorem trail_of_unknown (hk : ∀ e ∈ h, e.tid < i) : trail i h = [] := by
  induction h with
  | nil => rfl
  | cons e h ih =>
    rw [trail_other (by have := hk e List.mem_cons_self; omega)]
    exact ih fun e' he' => hk e' (List.mem_cons_of_mem _ he')

section Step

variable {L : ℕ → S.Request → Law S.E} {Q : ℕ → S.Request → S.Result → List (Event S.E) → Prop}
  {X : ℕ → S.Request → S.Fault → List (Event S.E) → Prop} {c : S.Config}

/-- The program that has just arrived has an empty trail. -/
theorem Lawful.start (h : Lawful L Q X c) {r : S.Request}
    (hprog : (L c.threads.length r).Keeps (Q c.threads.length r) (X c.threads.length r)
      (S.program c.threads.length r) []) :
    Lawful L Q X { c with threads := c.threads ++ [⟨r, S.program c.threads.length r⟩] } := by
  have hnew : trail c.threads.length c.world.history = [] := trail_of_unknown h.known
  refine ⟨fun i t ht => ?_, fun i t ht => ?_, fun e he => ?_⟩
  · by_cases hlt : i < c.threads.length
    · rw [List.getElem?_append_left hlt] at ht
      exact h.keeps i t ht
    · obtain ⟨rfl, rfl⟩ := getElem?_concat_last hlt ht
      rw [hnew]
      exact hprog
  · by_cases hlt : i < c.threads.length
    · rw [List.getElem?_append_left hlt] at ht
      exact h.obeyed i t ht
    · obtain ⟨rfl, rfl⟩ := getElem?_concat_last hlt ht
      rw [hnew]
      trivial
  · rw [List.length_append]
    exact Nat.lt_add_right _ (h.known e he)

/-- A statement goes on the trail of the program that has performed it, and on no other. -/
theorem Lawful.perform (h : Lawful L Q X c) {i : ℕ} {r : S.Request} {o : S.E.Stmt}
    {k : S.E.Answer o → Prog S.E S.Fault S.Result} {a : S.E.Answer o} {s : S.State}
    (hi : c.threads[i]? = some ⟨r, .perform o k⟩) (ha : (L i r).Answers o a) :
    Lawful L Q X ⟨⟨s, ⟨i, o, a⟩ :: c.world.history⟩, c.threads.set i ⟨r, k a⟩⟩ := by
  have hlt := (List.getElem?_eq_some_iff.mp hi).1
  obtain ⟨hallows, hrest⟩ := h.keeps i _ hi a ha
  have hown : trail i (⟨i, o, a⟩ :: c.world.history) = ⟨o, a⟩ :: trail i c.world.history :=
    if_pos rfl
  have hother : ∀ j, i ≠ j → trail j (⟨i, o, a⟩ :: c.world.history) = trail j c.world.history :=
    fun j hij => if_neg hij
  refine ⟨fun j t ht => ?_, fun j t ht => ?_, fun e he => ?_⟩
  · by_cases hij : i = j
    · subst hij
      rw [List.getElem?_set_self hlt, Option.some.injEq] at ht
      subst ht
      exact hown.symm ▸ hrest
    · rw [List.getElem?_set_ne hij] at ht
      exact (hother j hij).symm ▸ h.keeps j t ht
  · by_cases hij : i = j
    · subst hij
      rw [List.getElem?_set_self hlt, Option.some.injEq] at ht
      subst ht
      exact hown.symm ▸ ⟨hallows, h.obeyed i ⟨r, .perform o k⟩ hi⟩
    · rw [List.getElem?_set_ne hij] at ht
      exact (hother j hij).symm ▸ h.obeyed j t ht
  · rw [List.length_set]
    rcases List.mem_cons.mp he with rfl | hmem
    · exact hlt
    · exact h.known e hmem

end Step

/-- A law may say of the answers what is true of every answer on the way to the configuration
that is looked at, laws being kept so far: each program then keeps the law its text keeps. -/
theorem Config.Reaches.keeps_toward {L : ℕ → S.Request → Law S.E}
    {Q : ℕ → S.Request → S.Result → List (Event S.E) → Prop}
    {X : ℕ → S.Request → S.Fault → List (Event S.E) → Prop}
    {s : S.State} {c : S.Config}
    (hanswers : ∀ i o ch c₁ c₂ a, (Config.start s).Reaches c₁ → Lawful L Q X c₁ →
      S.exec i o ch c₁.world.state = some (a, c₂.world.state) →
      c₂.world.history = ⟨i, o, a⟩ :: c₁.world.history → (Config.start s).Reaches c₂ →
      c₂.Reaches c → ∀ r, (L i r).Answers o a)
    (hprog : ∀ i r, (L i r).Keeps (Q i r) (X i r) (S.program i r) [])
    (h : (Config.start s).Reaches c) : Lawful L Q X c := by
  refine h.induct (P := fun c₁ => c₁.Reaches c → Lawful L Q X c₁)
    (fun _ => ⟨by simp [Config.start], by simp [Config.start], by simp [Config.start]⟩) ?_
    (Config.Reaches.refl c)
  intro c₁ m c₂ hreach ih hm hto
  have hp := ih (((Config.Reaches.refl c₁).tail hm).trans hto)
  have hreach' := hreach.tail hm
  rcases Config.step_eq_some hm with ⟨r, -, rfl⟩ | ⟨i, ch, r, o, k, a, w, -, hi, he, rfl⟩ |
    ⟨x, s, -, -, rfl⟩
  · exact hp.start (hprog _ r)
  · obtain ⟨s, hs, rfl⟩ := World.exec_eq_some.mp he
    exact hp.perform hi (hanswers i o ch c₁ _ a hreach hp hs rfl hreach' hto r)
  · exact ⟨hp.keeps, hp.obeyed, hp.known⟩

/-- **Laws.** Along every run each program keeps the law its text keeps. -/
theorem Config.Reaches.keeps {L : ℕ → S.Request → Law S.E}
    {Q : ℕ → S.Request → S.Result → List (Event S.E) → Prop}
    {X : ℕ → S.Request → S.Fault → List (Event S.E) → Prop}
    (hanswers : ∀ i o ch s a s', S.exec i o ch s = some (a, s') → ∀ r, (L i r).Answers o a)
    (hprog : ∀ i r, (L i r).Keeps (Q i r) (X i r) (S.program i r) [])
    {s : S.State} {c : S.Config} (h : (Config.start s).Reaches c) : Lawful L Q X c :=
  h.keeps_toward (fun i o ch _ _ a _ _ he _ _ _ => hanswers i o ch _ a _ he) hprog

/-- An entry of the history was allowed after what its program had performed by then. -/
theorem Lawful.allows {L : ℕ → S.Request → Law S.E}
    {Q : ℕ → S.Request → S.Result → List (Event S.E) → Prop}
    {X : ℕ → S.Request → S.Fault → List (Event S.E) → Prop} {c : S.Config}
    (h : Lawful L Q X c) {l past : List (Entry S.E)} {e : Entry S.E}
    (he : c.world.history = l ++ e :: past) :
    ∃ t, c.threads[e.tid]? = some t ∧
      (L e.tid t.request).Allows (trail e.tid past) ⟨e.stmt, e.answer⟩ := by
  have hlt : e.tid < c.threads.length :=
    h.known e (he ▸ List.mem_append_right _ List.mem_cons_self)
  refine ⟨c.threads[e.tid], List.getElem?_eq_getElem hlt, ?_⟩
  have hobeyed := h.obeyed e.tid _ (List.getElem?_eq_getElem hlt)
  rw [he, trail_append, trail_own rfl] at hobeyed
  exact hobeyed.allows

/-- A run from `s` to `c` had come to the history `past` when it performed `e`. -/
def PerformedAt (s : S.State) (c : S.Config) (past : List (Entry S.E)) (e : Entry S.E) : Prop :=
  ∃ c₁ c₂ ch, (Config.start s).Reaches c₁ ∧ c₁.world.history = past ∧
    c₁.step (.perform e.tid ch) = some c₂ ∧ c₂.world.history = e :: past ∧
    S.exec e.tid e.stmt ch c₁.world.state = some (e.answer, c₂.world.state) ∧ c₂.Reaches c

/-- What was performed was performed still after a step. -/
theorem PerformedAt.step {s : S.State} {c c' : S.Config} {past : List (Entry S.E)}
    {e : Entry S.E} {m : S.Move} (h : PerformedAt s c past e) (hm : c.step m = some c') :
    PerformedAt s c' past e := by
  obtain ⟨c₁, c₂, ch, hreach, hpast, hstep, hhist, hexec, hto⟩ := h
  exact ⟨c₁, c₂, ch, hreach, hpast, hstep, hhist, hexec, hto.tail hm⟩

/-- **The step behind an entry.** -/
theorem Config.Reaches.at_entry {s : S.State} {c : S.Config} (h : (Config.start s).Reaches c)
    {l past : List (Entry S.E)} {e : Entry S.E} (he : c.world.history = l ++ e :: past) :
    PerformedAt s c past e := by
  revert l
  refine h.induct (P := fun c => ∀ {l}, c.world.history = l ++ e :: past → PerformedAt s c past e)
    ?_ ?_
  · intro l hl
    exact absurd hl.symm (by simp [Config.start])
  · intro c₁ m c₂ hc₁ ih hm l hl
    rcases Config.step_eq_some hm with ⟨r, -, rfl⟩ | ⟨i, ch, r, o, k, a, w, rfl, hi, hexec, rfl⟩ |
      ⟨x, s', -, -, rfl⟩
    · exact (ih hl).step hm
    · obtain ⟨s', hs', rfl⟩ := World.exec_eq_some.mp hexec
      cases l with
      | nil =>
        obtain ⟨rfl, rfl⟩ := List.cons.inj hl
        exact ⟨c₁, _, ch, hc₁, rfl, hm, rfl, hs', .refl _⟩
      | cons e' l => exact (ih (List.cons.inj hl).2).step hm
    · exact (ih hl).step hm

/-- Program `i` performs `o` at `c₁` and is answered `a`; the run goes on to `c`. -/
def Config.Answered (c₁ : S.Config) (i : ℕ) (o : S.E.Stmt) (a : S.E.Answer o) (c : S.Config) :
    Prop :=
  ∃ ch c₂, c₁.step (.perform i ch) = some c₂ ∧
    c₂.world.history = ⟨i, o, a⟩ :: c₁.world.history ∧ c₂.Reaches c

/-- **What a trail shows happened.** -/
theorem Config.Reaches.performed {s : S.State} {c : S.Config} (h : (Config.start s).Reaches c)
    {x : Event S.E} {since rest : List (Event S.E)}
    (hx : trail i c.world.history = since ++ x :: rest) :
    ∃ c₁ ch s', (Config.start s).Reaches c₁ ∧ c₁.Answered i x.stmt x.answer c ∧
      trail i c₁.world.history = rest ∧
      S.exec i x.stmt ch c₁.world.state = some (x.answer, s') := by
  obtain ⟨later, past, hh, hrest⟩ := trail_eq_append hx
  obtain ⟨c₁, c₂, ch, hreach, rfl, hstep, hadded, hexec, hto⟩ := h.at_entry hh
  exact ⟨c₁, ch, _, hreach, ⟨ch, c₂, hstep, hadded, hto⟩, hrest, hexec⟩

end Service

end SettlementOS.Computation
