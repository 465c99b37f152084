import SettlementOS.Program.Idempotency
import SettlementOS.Computation.Discipline
import SettlementOS.Computation.Guarded

/-!
# When a key is a promise

`KeepsPromise` is a condition on the steps of a run: no request starts its handler, stamps
or deletes once another has reclaimed the record from under it, and no record is deleted
for a request whose handler has committed something. Along runs that meet it, a claim
whose handler has committed holds the record until its time is up, and every stored
response is the answer of the handler of whoever claimed the record for that route and
hash. Both are read off the record, its claimant and the history.
-/

set_option autoImplicit false

namespace SettlementOS.Analysis.Idempotency

open SettlementOS.Computation Service Discipline Model Program.Idempotency

/-- The history of one key. -/
abbrev History : Type := List (Entry recordEffects)

/-! ## What the history tells -/

/-- Whether an entry is the end of program `i`'s handler, with something committed. -/
def commits (i : ℕ) : Entry recordEffects → Bool
  | ⟨j, .awaitHandler, handler⟩ => j == i && handler.committed
  | _ => false

/-- Whether program `i`'s handler has committed something. -/
def committed (i : ℕ) (h : History) : Bool := h.any (commits i)

/-- The time from which program `i` claims the record, where an entry is its claim. -/
def claims (i : ℕ) : Entry recordEffects → Option ℕ
  | ⟨j, .create _ _, .ok record⟩ => if j = i then some record.createdAt else none
  | ⟨j, .updateMany _ _ _ _ renewedAt, .ok 1⟩ => if j = i then some renewedAt else none
  | _ => none

/-- The time from which program `i` claims the record. -/
def claimedAt (i : ℕ) (h : History) : Option ℕ := h.findSome? (claims i)

/-- No handler starts while a claim lives whose handler has committed something. -/
def NeverReruns : History → Prop
  | [] => True
  | e :: h => NeverReruns h ∧
    match e with
    | ⟨_, .startHandler, now⟩ => ∀ i t, committed i h = true → claimedAt i h = some t →
        t + IDEMPOTENCY_TTL_MS ≤ now
    | _ => True

/-- Program `i` has tried to claim the record for a route and a hash. -/
def Asked (i : ℕ) (route requestHash : String) (h : History) : Prop :=
  ∃ e ∈ h, e.tid = i ∧ (e.stmt = .create route requestHash ∨
    ∃ id createdAt renewedAt, e.stmt = .updateMany id createdAt route requestHash renewedAt)

/-- Whether an entry is the end of program `i`'s handler with this answer. -/
def answers (i : ℕ) (response : Response) : Entry recordEffects → Prop
  | ⟨j, .awaitHandler, handler⟩ => j = i ∧ handler.outcome = .ok response
  | _ => False

/-- Program `i`'s handler has answered this. -/
def Answered (i : ℕ) (response : Response) (h : History) : Prop := ∃ e ∈ h, answers i response e

/-- Program `i` has stamped this. -/
def Stamped (i : ℕ) (response : Response) (h : History) : Prop :=
  ∃ e ∈ h, e.tid = i ∧ ∃ id, e.stmt = .update id response

/-- Some program claimed the record for this route and hash, and this is its handler's answer,
which it has stamped. -/
def StoredFor (route requestHash : String) (response : Response) (h : History) : Prop :=
  ∃ i, Asked i route requestHash h ∧ Answered i response h ∧ Stamped i response h

/-! ## The condition on the steps -/

/-- The step a program is about to take leaves the promise alone. -/
def keepsPromise (env : Keying) (i : ℕ) (o : RecordStmt) (c : RecordChoice)
    (w : (service env).World) : Bool :=
  match o with
  | .startHandler => w.state.claimant == i
  | .update id _ => !c.applied || (w.state.find id).isNone || w.state.claimant == i
  | .deleteMany id => !c.applied || (w.state.find id).isNone ||
      (w.state.claimant == i && !committed i w.history)
  | _ => true

/-- No handler is started and no record written by a request from which it was reclaimed, and no
record deleted whose handler has committed something. -/
def KeepsPromise (env : Keying) : Guard (service env) where
  stmt := keepsPromise env

variable {env : Keying}

/-- A world of the runs that meet the condition. -/
abbrev W (env : Keying) : Type := ((service env).guarded (KeepsPromise env)).World

/-! ## The invariant -/

/-- Program `i` has tried to drop the record. -/
def GaveUp (i : ℕ) (h : History) : Prop := ∃ e ∈ h, e.tid = i ∧ ∃ id, e.stmt = .deleteMany id

/-- Program `i`'s handler has ended. -/
def Ended (i : ℕ) (h : History) : Prop := ∃ e ∈ h, e.tid = i ∧ e.stmt = .awaitHandler

/-- The record is program `i`'s claim from `t` on. -/
def HeldBy (s : RecordState) (i t : ℕ) : Prop :=
  s.claimant = i ∧ ∃ r, s.record = some r ∧ r.createdAt = t

/-- What every run along the condition keeps. -/
structure Promise (s : RecordState) (h : History) : Prop where
  /-- a claim that was not given up, or has committed, holds the record while it lives -/
  lives : ∀ i t, claimedAt i h = some t → (¬ GaveUp i h ∨ committed i h = true) →
    HeldBy s i t ∨ t + IDEMPOTENCY_TTL_MS ≤ s.clock
  /-- the record names what its claimant asked for -/
  asked : ∀ r, s.record = some r → Asked s.claimant r.route r.requestHash h
  /-- a stored response is the claimant's -/
  stored : ∀ r status body, s.record = some r → r.responseStatus = some status →
    r.responseBody = some body →
    Answered s.claimant ⟨status, body⟩ h ∧ Stamped s.claimant ⟨status, body⟩ h
  spaced : NeverReruns h

/-- What the others leave alone. -/
structure Others (i : ℕ) (w w' : W env) : Prop where
  clock : w.state.state.clock ≤ w'.state.state.clock
  history : w.state.history <:+ w'.state.history
  own : ∀ e ∈ w'.state.history, e.tid = i → e ∈ w.state.history

/-- The discipline of one key. -/
def discipline (env : Keying) : Discipline ((service env).guarded (KeepsPromise env)) where
  Inv w := Promise w.state.state w.state.history
  Rely := Others
  Start i w := ∀ e ∈ w.state.history, e.tid ≠ i
  refl _ _ := ⟨le_refl _, List.suffix_refl _, fun _ he _ => he⟩
  trans _ _ _ _ h h' := ⟨le_trans h.clock h'.clock, h.history.trans h'.history,
    fun e he hi => h.own e (h'.own e he hi) hi⟩
  start_stable _ _ _ h hr e he hi := h e (hr.own e he hi) hi

/-! ## Entries -/

section Entries

variable {e : Entry recordEffects} {h h' : History} {i j t : ℕ} {route requestHash : String}
  {response : Response}

/-- A handler has committed something at this entry or before. -/
theorem committed_cons : committed i (e :: h) = (commits i e || committed i h) := List.any_cons

/-- The newest claim is the one that counts. -/
theorem claimedAt_cons : claimedAt i (e :: h) = (claims i e).or (claimedAt i h) := by
  unfold claimedAt
  rw [List.findSome?_cons]
  cases claims i e <;> rfl

/-- Only a program's own entry is the end of its handler. -/
theorem commits_other (he : e.tid ≠ i) : commits i e = false := by
  unfold commits
  split
  · simp only [Bool.and_eq_false_iff, beq_eq_false_iff_ne]
    exact Or.inl he
  · rfl

/-- What was tried stays tried. -/
theorem Asked.mono (ha : Asked i route requestHash h) (hs : h <:+ h') :
    Asked i route requestHash h' := by
  obtain ⟨e, he, hrest⟩ := ha
  exact ⟨e, hs.subset he, hrest⟩

/-- What was answered stays answered. -/
theorem Answered.mono (ha : Answered i response h) (hs : h <:+ h') : Answered i response h' := by
  obtain ⟨e, he, hrest⟩ := ha
  exact ⟨e, hs.subset he, hrest⟩

/-- What was stamped stays stamped. -/
theorem Stamped.mono (ha : Stamped i response h) (hs : h <:+ h') : Stamped i response h' := by
  obtain ⟨e, he, hrest⟩ := ha
  exact ⟨e, hs.subset he, hrest⟩

/-- What was stored for a request stays stored for it. -/
theorem StoredFor.mono (ha : StoredFor route requestHash response h) (hs : h <:+ h') :
    StoredFor route requestHash response h' := by
  obtain ⟨i, hasked, hanswered, hstamped⟩ := ha
  exact ⟨i, hasked.mono hs, hanswered.mono hs, hstamped.mono hs⟩

/-- Who has not given up had not before. -/
theorem not_gaveUp_tail (hg : ¬ GaveUp i (e :: h)) : ¬ GaveUp i h := by
  rintro ⟨e', he', hrest⟩
  exact hg ⟨e', List.mem_cons_of_mem _ he', hrest⟩

end Entries

/-! ## What a statement needs and does -/

/-- What program `i` knows before it performs `o`. -/
def Ready (i : ℕ) (s : RecordState) (h : History) : RecordStmt → Prop
  | .updateMany _ createdAt _ _ _ => createdAt + IDEMPOTENCY_TTL_MS ≤ s.clock
  | .startHandler => ¬ Ended i h
  | .awaitHandler => ¬ GaveUp i h
  | .update _ response => Answered i response h
  | _ => True

/-- A statement that touches neither the record nor its claimant, claims nothing and commits
nothing. -/
theorem Promise.keep {s : RecordState} {h : History} (hp : Promise s h) {e : Entry recordEffects}
    (hclaims : ∀ i, claims i e = none) (hcommits : ∀ i, commits i e = false)
    (hspaced : NeverReruns (e :: h)) : Promise s (e :: h) where
  lives i t hc hl := by
    rw [claimedAt_cons, hclaims, Option.none_or] at hc
    rw [committed_cons, hcommits, Bool.false_or] at hl
    exact hp.lives i t hc (hl.imp_left not_gaveUp_tail)
  asked r hr := (hp.asked r hr).mono (List.suffix_cons _ _)
  stored r status body hr hs hb := by
    obtain ⟨ha, hst⟩ := hp.stored r status body hr hs hb
    exact ⟨ha.mono (List.suffix_cons _ _), hst.mono (List.suffix_cons _ _)⟩
  spaced := hspaced

/-- A claim that takes effect: whoever held the record before has run out of time. -/
theorem Promise.claim {s s' : RecordState} {h : History} (hp : Promise s h)
    {e : Entry recordEffects} {r : IdempotencyRecord} (hr : s'.record = some r)
    (hclaimant : s'.claimant = e.tid) (hclock : s'.clock = s.clock)
    (hfree : ∀ i t, HeldBy s i t → t + IDEMPOTENCY_TTL_MS ≤ s.clock)
    (hasked : Asked e.tid r.route r.requestHash (e :: h)) (hnew : r.responseStatus = none)
    (hclaims : ∀ i t, claims i e = some t → i = e.tid ∧ t = r.createdAt)
    (hcommits : ∀ i, commits i e = false) (hspaced : NeverReruns (e :: h)) :
    Promise s' (e :: h) where
  lives i t hc hl := by
    rw [claimedAt_cons] at hc
    cases hmine : claims i e with
    | some t' =>
      obtain ⟨rfl, rfl⟩ := hclaims i t' hmine
      rw [hmine, Option.some_or, Option.some.injEq] at hc
      exact Or.inl ⟨hclaimant, r, hr, hc⟩
    | none =>
      rw [hmine, Option.none_or] at hc
      rw [committed_cons, hcommits, Bool.false_or] at hl
      rw [hclock]
      rcases hp.lives i t hc (hl.imp_left not_gaveUp_tail) with hheld | hover
      · exact Or.inr (hfree i t hheld)
      · exact Or.inr hover
  asked r' hr' := by
    rw [hr, Option.some.injEq] at hr'
    subst hr'
    rw [hclaimant]
    exact hasked
  stored r' status body hr' hs _ := by
    rw [hr, Option.some.injEq] at hr'
    subst hr'
    rw [hnew] at hs
    cases hs
  spaced := hspaced

/-- What has committed has ended. -/
theorem ended_of_committed {i : ℕ} {h : History} (hc : committed i h = true) : Ended i h := by
  unfold committed at hc
  rw [List.any_eq_true] at hc
  obtain ⟨e, he, hcommit⟩ := hc
  unfold commits at hcommit
  split at hcommit
  · simp only [Bool.and_eq_true, beq_iff_eq] at hcommit
    exact ⟨_, he, hcommit.1, rfl⟩
  · cases hcommit

/-- Looking a record up by id. -/
theorem find_eq_some {s : RecordState} {id : ℕ} {r : IdempotencyRecord} (h : s.find id = some r) :
    s.record = some r ∧ r.id = id := by
  unfold RecordState.find at h
  rw [Option.filter_eq_some_iff] at h
  exact ⟨h.1, beq_iff_eq.mp h.2⟩

/-- A write is done, done with its answer lost, or not done. -/
theorem write_cases {α : Type} (c : RecordChoice) (s : RecordState)
    (done : Except RecordErr α × RecordState) :
    (c.applied = true ∧ c.write s done = done) ∨
      (c.applied = true ∧ ∃ message, c.write s done = (.error (.database message), done.2)) ∨
      ∃ message, c.write s done = (.error (.database message), s) := by
  unfold RecordChoice.write RecordChoice.applied
  cases c.fails with
  | none => exact Or.inl ⟨rfl, rfl⟩
  | some f =>
    obtain ⟨message, applied⟩ := f
    cases applied with
    | true => exact Or.inr (Or.inl ⟨rfl, message, rfl⟩)
    | false => exact Or.inr (Or.inr ⟨message, rfl⟩)

section Equations

variable {s : RecordState} {r : IdempotencyRecord} {route requestHash : String}
  {id createdAt renewedAt : ℕ} (i : ℕ) (c : RecordChoice) (response : Response)

/-- A key that is taken is not created again. -/
theorem exec_create_taken (h : s.record = some r) :
    (RecordStmt.create route requestHash).exec i c s = c.write s (.error .uniqueViolation, s) := by
  simp only [RecordStmt.exec, h]

/-- A key that is free is created, by its claimant. -/
theorem exec_create (h : s.record = none) :
    (RecordStmt.create route requestHash).exec i c s =
      c.write s (.ok ⟨s.issued, route, requestHash, none, none, s.clock⟩,
        { s with record := some ⟨s.issued, route, requestHash, none, none, s.clock⟩
                 claimant := i, issued := s.issued + 1 }) := by
  simp only [RecordStmt.exec, h]

/-- A record that was renewed meanwhile is not reclaimed. -/
theorem exec_updateMany_missed (h : ∀ r, s.find id = some r → r.createdAt ≠ createdAt) :
    (RecordStmt.updateMany id createdAt route requestHash renewedAt).exec i c s =
      c.write s (.ok 0, s) := by
  cases hfind : s.find id with
  | none => simp only [RecordStmt.exec, hfind]
  | some r => simp only [RecordStmt.exec, hfind, if_neg (h r hfind)]

/-- A record with the time that was read is reclaimed. -/
theorem exec_updateMany (h : s.find id = some r) (hmatch : r.createdAt = createdAt) :
    (RecordStmt.updateMany id createdAt route requestHash renewedAt).exec i c s =
      c.write s (.ok 1, { s with
        record := some ⟨r.id, route, requestHash, none, none, renewedAt⟩, claimant := i }) := by
  simp only [RecordStmt.exec, h, if_pos hmatch]

/-- A record that is gone is not stamped. -/
theorem exec_update_missing (h : s.find id = none) :
    (RecordStmt.update id response).exec i c s =
      c.write s (.error (.database "No record was found for an update."), s) := by
  simp only [RecordStmt.exec, h]

/-- A record that is there is stamped. -/
theorem exec_update (h : s.find id = some r) :
    (RecordStmt.update id response).exec i c s = c.write s (.ok (), { s with
      record := some { r with
        responseStatus := some response.status, responseBody := some response.body } }) := by
  simp only [RecordStmt.exec, h]

/-- A record that is gone is not deleted. -/
theorem exec_deleteMany_missing (h : s.find id = none) :
    (RecordStmt.deleteMany id).exec i c s = c.write s (.ok (), s) := by
  simp only [RecordStmt.exec, h, Option.isSome_none, Bool.false_eq_true, if_false]

/-- A record that is there is deleted. -/
theorem exec_deleteMany (h : s.find id = some r) :
    (RecordStmt.deleteMany id).exec i c s = c.write s (.ok (), { s with record := none }) := by
  simp only [RecordStmt.exec, h, Option.isSome_some, if_true]

end Equations

/-- Creating the record keeps the promise. -/
theorem Promise.create {s : RecordState} {h : History} (hp : Promise s h) (i : ℕ)
    (route requestHash : String) (c : RecordChoice) :
    Promise ((RecordStmt.create route requestHash).exec i c s).2
      (⟨i, .create route requestHash, ((RecordStmt.create route requestHash).exec i c s).1⟩
        :: h) := by
  have hfailed : ∀ error, Promise s (⟨i, .create route requestHash, .error error⟩ :: h) :=
    fun _ => hp.keep (fun _ => rfl) (fun _ => rfl) ⟨hp.spaced, trivial⟩
  cases hrecord : s.record with
  | some r =>
    rw [exec_create_taken i c hrecord]
    rcases write_cases c s (.error .uniqueViolation, s) with
      ⟨_, heq⟩ | ⟨_, message, heq⟩ | ⟨message, heq⟩ <;> rw [heq] <;> exact hfailed _
  | none =>
    have hfree : ∀ j t, HeldBy s j t → t + IDEMPOTENCY_TTL_MS ≤ s.clock := by
      rintro j t ⟨_, r, hr, _⟩
      rw [hrecord] at hr
      cases hr
    have hasked : ∀ answer : Except RecordErr IdempotencyRecord,
        Asked i route requestHash (⟨i, .create route requestHash, answer⟩ :: h) :=
      fun answer => ⟨⟨i, .create route requestHash, answer⟩, List.mem_cons_self .., rfl, Or.inl rfl⟩
    rw [exec_create i c hrecord]
    rcases write_cases c s (.ok (⟨s.issued, route, requestHash, none, none, s.clock⟩ :
        IdempotencyRecord), { s with
          record := some ⟨s.issued, route, requestHash, none, none, s.clock⟩, claimant := i,
          issued := s.issued + 1 }) with
      ⟨_, heq⟩ | ⟨_, message, heq⟩ | ⟨message, heq⟩
    · rw [heq]
      refine hp.claim rfl rfl rfl hfree (hasked _) rfl ?_
        (fun _ => rfl) ⟨hp.spaced, trivial⟩
      intro j t hclaim
      change (if i = j then some s.clock else none) = some t at hclaim
      split at hclaim
      next hij => exact ⟨hij.symm, (Option.some.inj hclaim).symm⟩
      next => cases hclaim
    · rw [heq]
      exact hp.claim rfl rfl rfl hfree (hasked _) rfl
        (fun _ _ hclaim => nomatch hclaim) (fun _ => rfl) ⟨hp.spaced, trivial⟩
    · rw [heq]
      exact hfailed _

/-- Reclaiming one whose time is up keeps the promise. -/
theorem Promise.updateMany {s : RecordState} {h : History} (hp : Promise s h) (i : ℕ)
    {id createdAt : ℕ} (route requestHash : String) (renewedAt : ℕ) (c : RecordChoice)
    (hexpired : createdAt + IDEMPOTENCY_TTL_MS ≤ s.clock) :
    Promise ((RecordStmt.updateMany id createdAt route requestHash renewedAt).exec i c s).2
      (⟨i, .updateMany id createdAt route requestHash renewedAt,
        ((RecordStmt.updateMany id createdAt route requestHash renewedAt).exec i c s).1⟩ :: h) := by
  have hfailed : ∀ error, Promise s
      (⟨i, .updateMany id createdAt route requestHash renewedAt, .error error⟩ :: h) :=
    fun _ => hp.keep (fun _ => rfl) (fun _ => rfl) ⟨hp.spaced, trivial⟩
  have hmissed : Promise s
      (⟨i, .updateMany id createdAt route requestHash renewedAt, .ok 0⟩ :: h) :=
    hp.keep (fun _ => rfl) (fun _ => rfl) ⟨hp.spaced, trivial⟩
  by_cases hhit : ∃ r, s.find id = some r ∧ r.createdAt = createdAt
  · obtain ⟨r, hfind, hmatch⟩ := hhit
    have hfree : ∀ j t, HeldBy s j t → t + IDEMPOTENCY_TTL_MS ≤ s.clock := by
      rintro j t ⟨_, r', hr', hcreated⟩
      rw [(find_eq_some hfind).1, Option.some.injEq] at hr'
      rw [← hcreated, ← hr', hmatch]
      exact hexpired
    have hasked : ∀ answer : Except RecordErr ℕ, Asked i route requestHash
        (⟨i, .updateMany id createdAt route requestHash renewedAt, answer⟩ :: h) :=
      fun _ => ⟨_, List.mem_cons_self .., rfl, Or.inr ⟨id, createdAt, renewedAt, rfl⟩⟩
    rw [exec_updateMany i c hfind hmatch]
    rcases write_cases c s (.ok 1, { s with
        record := some ⟨r.id, route, requestHash, none, none, renewedAt⟩, claimant := i }) with
      ⟨_, heq⟩ | ⟨_, message, heq⟩ | ⟨message, heq⟩
    · rw [heq]
      refine hp.claim rfl rfl rfl hfree (hasked _) rfl ?_ (fun _ => rfl) ⟨hp.spaced, trivial⟩
      intro j t hclaim
      change (if i = j then some renewedAt else none) = some t at hclaim
      split at hclaim
      next hij => exact ⟨hij.symm, (Option.some.inj hclaim).symm⟩
      next => cases hclaim
    · rw [heq]
      exact hp.claim rfl rfl rfl hfree (hasked _) rfl
        (fun _ _ hclaim => nomatch hclaim) (fun _ => rfl) ⟨hp.spaced, trivial⟩
    · rw [heq]
      exact hfailed _
  · rw [exec_updateMany_missed i c fun r hfind hmatch => hhit ⟨r, hfind, hmatch⟩]
    rcases write_cases c s (.ok 0, s) with ⟨_, heq⟩ | ⟨_, message, heq⟩ |
      ⟨message, heq⟩ <;> rw [heq]
    · exact hmissed
    · exact hfailed _
    · exact hfailed _

/-- Stamping keeps the promise, where the step meets the condition. -/
theorem Promise.update {s : RecordState} {h : History} (hp : Promise s h) {i id : ℕ}
    {response : Response} {c : RecordChoice} (hanswered : Answered i response h)
    (hguard : keepsPromise env i (.update id response) c ⟨s, h⟩ = true) :
    Promise ((RecordStmt.update id response).exec i c s).2
      (⟨i, .update id response, ((RecordStmt.update id response).exec i c s).1⟩ :: h) := by
  have hsame : ∀ answer, Promise s (⟨i, .update id response, answer⟩ :: h) :=
    fun _ => hp.keep (fun _ => rfl) (fun _ => rfl) ⟨hp.spaced, trivial⟩
  cases hfind : s.find id with
  | none =>
    rw [exec_update_missing i c response hfind]
    rcases write_cases c s (.error (.database "No record was found for an update."), s) with
      ⟨_, heq⟩ | ⟨_, message, heq⟩ | ⟨message, heq⟩ <;> rw [heq] <;> exact hsame _
  | some r =>
    have hdone : c.applied = true → ∀ answer, Promise { s with
        record := some { r with
          responseStatus := some response.status, responseBody := some response.body } }
        (⟨i, .update id response, answer⟩ :: h) := by
      intro happlied answer
      have hmine : s.claimant = i := by
        simpa only [keepsPromise, happlied, hfind, Bool.not_true, Option.isNone_some,
          Bool.false_or, beq_iff_eq] using hguard
      have hrecord := (find_eq_some hfind).1
      refine ⟨?_, ?_, ?_, ⟨hp.spaced, trivial⟩⟩
      · intro j t hc hl
        rw [claimedAt_cons] at hc
        change (Option.none).or _ = _ at hc
        rw [Option.none_or] at hc
        rw [committed_cons] at hl
        change _ ∨ (false || _) = _ at hl
        rw [Bool.false_or] at hl
        refine (hp.lives j t hc (hl.imp_left not_gaveUp_tail)).imp_left ?_
        rintro ⟨hclaimant, r', hr', hcreated⟩
        rw [hrecord, Option.some.injEq] at hr'
        exact ⟨hclaimant, _, rfl, hr' ▸ hcreated⟩
      · intro r' hr'
        rw [Option.some.injEq] at hr'
        subst hr'
        exact (hp.asked r hrecord).mono (List.suffix_cons _ _)
      · intro r' status body hr' hs hb
        rw [Option.some.injEq] at hr'
        subst hr'
        cases hs
        cases hb
        show Answered s.claimant response _ ∧ Stamped s.claimant response _
        rw [hmine]
        exact ⟨hanswered.mono (List.suffix_cons _ _), _, List.mem_cons_self .., rfl, id, rfl⟩
    rw [exec_update i c response hfind]
    rcases write_cases c s (.ok (), { s with record := some { r with
        responseStatus := some response.status, responseBody := some response.body } }) with
      ⟨happlied, heq⟩ | ⟨happlied, message, heq⟩ | ⟨message, heq⟩ <;> rw [heq]
    · exact hdone happlied _
    · exact hdone happlied _
    · exact hsame _

/-- Deleting keeps the promise, where the step meets the condition. -/
theorem Promise.deleteMany {s : RecordState} {h : History} (hp : Promise s h) {i id : ℕ}
    {c : RecordChoice} (hguard : keepsPromise env i (.deleteMany id) c ⟨s, h⟩ = true) :
    Promise ((RecordStmt.deleteMany id).exec i c s).2
      (⟨i, .deleteMany id, ((RecordStmt.deleteMany id).exec i c s).1⟩ :: h) := by
  have hsame : ∀ answer, Promise s (⟨i, .deleteMany id, answer⟩ :: h) :=
    fun _ => hp.keep (fun _ => rfl) (fun _ => rfl) ⟨hp.spaced, trivial⟩
  cases hfind : s.find id with
  | none =>
    rw [exec_deleteMany_missing i c hfind]
    rcases write_cases c s (.ok (), s) with
      ⟨_, heq⟩ | ⟨_, message, heq⟩ | ⟨message, heq⟩ <;> rw [heq] <;> exact hsame _
  | some r =>
    have hdone : c.applied = true → ∀ answer, Promise { s with record := none }
        (⟨i, .deleteMany id, answer⟩ :: h) := by
      intro happlied answer
      have hmine : s.claimant = i ∧ committed i h = false := by
        simpa only [keepsPromise, happlied, hfind, Bool.not_true, Option.isNone_some,
          Bool.false_or, Bool.and_eq_true, beq_iff_eq, Bool.not_eq_true'] using hguard
      refine ⟨?_, fun r' hr' => (nomatch hr'), fun r' _ _ hr' => (nomatch hr'),
        ⟨hp.spaced, trivial⟩⟩
      intro j t hc hl
      rw [claimedAt_cons] at hc
      change (Option.none).or _ = _ at hc
      rw [Option.none_or] at hc
      rw [committed_cons] at hl
      change _ ∨ (false || _) = _ at hl
      rw [Bool.false_or] at hl
      by_cases hj : j = i
      · -- its own record: it has given up, and has committed nothing
        subst hj
        rcases hl with hkept | hcommitted
        · exact absurd ⟨_, List.mem_cons_self .., rfl, id, rfl⟩ hkept
        · rw [hmine.2] at hcommitted
          cases hcommitted
      · rcases hp.lives j t hc (hl.imp_left not_gaveUp_tail) with ⟨hclaimant, _⟩ | hover
        · exact absurd (hclaimant.symm.trans hmine.1) hj
        · exact Or.inr hover
    rw [exec_deleteMany i c hfind]
    rcases write_cases c s (.ok (), { s with record := none }) with
      ⟨happlied, heq⟩ | ⟨happlied, message, heq⟩ | ⟨message, heq⟩ <;> rw [heq]
    · exact hdone happlied _
    · exact hdone happlied _
    · exact hsame _

/-- Every statement of a run along the condition keeps the invariant. -/
theorem Promise.exec {s : RecordState} {h : History} (hp : Promise s h) {i : ℕ} {o : RecordStmt}
    {c : RecordChoice} (hready : Ready i s h o) (hguard : keepsPromise env i o c ⟨s, h⟩ = true) :
    Promise (o.exec i c s).2 (⟨i, o, (o.exec i c s).1⟩ :: h) := by
  cases o with
  | beginWrite => exact hp.keep (fun _ => rfl) (fun _ => rfl) ⟨hp.spaced, trivial⟩
  | now => exact hp.keep (fun _ => rfl) (fun _ => rfl) ⟨hp.spaced, trivial⟩
  | findUnique =>
    have hsame : (RecordStmt.findUnique.exec i c s).2 = s := by
      show (c.write s _).2 = s
      unfold RecordChoice.write
      split
      · rfl
      · exact ite_self _
    rw [hsame]
    exact hp.keep (fun _ => rfl) (fun _ => rfl) ⟨hp.spaced, trivial⟩
  | startHandler =>
    refine hp.keep (fun _ => rfl) (fun _ => rfl) ⟨hp.spaced, ?_⟩
    intro j t hcommitted hclaimed
    rcases hp.lives j t hclaimed (Or.inr hcommitted) with ⟨hmine, _⟩ | hover
    · -- the claimant is the program that starts, and its handler has not ended
      have hi : s.claimant = i := beq_iff_eq.mp hguard
      rw [← hmine, hi] at hcommitted
      exact absurd (ended_of_committed hcommitted) hready
    · exact hover
  | awaitHandler =>
    refine ⟨?_, fun r hr => (hp.asked r hr).mono (List.suffix_cons _ _), ?_, ⟨hp.spaced, trivial⟩⟩
    · intro j t hc hl
      rw [claimedAt_cons] at hc
      change (Option.none).or _ = _ at hc
      rw [Option.none_or] at hc
      by_cases hj : j = i
      · subst hj
        exact hp.lives j t hc (Or.inl hready)
      · rw [committed_cons, commits_other (by exact fun hij => hj hij.symm), Bool.false_or] at hl
        exact hp.lives j t hc (hl.imp_left not_gaveUp_tail)
    · intro r status body hr hs hb
      obtain ⟨ha, hst⟩ := hp.stored r status body hr hs hb
      exact ⟨ha.mono (List.suffix_cons _ _), hst.mono (List.suffix_cons _ _)⟩
  | create route requestHash => exact hp.create i route requestHash c
  | updateMany id createdAt route requestHash renewedAt =>
    exact hp.updateMany i route requestHash renewedAt c hready
  | update id response => exact hp.update hready hguard
  | deleteMany id => exact hp.deleteMany hguard

end SettlementOS.Analysis.Idempotency
