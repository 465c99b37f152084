import SettlementOS.Analysis.Idempotency

/-!
# Keyed writes keep the promise

The programs of keyed writes, verified along their text. What a program knows of itself is
whether its handler has ended and whether it has given up its claim; what it knows of the
record is only that a time already past stays past, and that what was stored stays stored.
-/

set_option autoImplicit false

namespace SettlementOS.Analysis.Idempotency

open SettlementOS.Computation Service Discipline Model Program.Idempotency

variable {env : Keying} {i : ℕ}

/-! ## What a program knows -/

/-- Program `i` has neither run its handler to its end nor given up. -/
def Untried (i : ℕ) (w : W env) : Prop := ¬ Ended i w.state.history ∧ ¬ GaveUp i w.state.history

/-- What an outcome of claiming the key tells. -/
def Told (i : ℕ) (route requestHash : String) (w : W env) : Outcome → Prop
  | .fresh _ => Untried i w
  | .replay response => StoredFor route requestHash response w.state.history
  | _ => True

/-- That a request has tried nothing is stable. -/
theorem stable_untried : (discipline env).Stable i (Untried i) := by
  rintro w w' ⟨hended, hgave⟩ _ hr
  refine ⟨?_, ?_⟩
  · rintro ⟨e, he, hi, hrest⟩
    exact hended ⟨e, hr.own e he hi, hi, hrest⟩
  · rintro ⟨e, he, hi, hrest⟩
    exact hgave ⟨e, hr.own e he hi, hi, hrest⟩

/-- What a handler has answered is stable. -/
theorem stable_answered (response : Response) :
    (discipline env).Stable i fun w => Answered i response w.state.history :=
  fun _ _ h _ hr => h.mono hr.history

/-- A time that has passed is stable. -/
theorem stable_past (t : ℕ) : (discipline env).Stable i fun w => t ≤ w.state.state.clock :=
  fun _ _ h _ hr => le_trans h hr.clock

/-- A program that performs some other statement is as untried as before. -/
theorem Untried.cons {w w' : W env} (h : Untried i w) {e : Entry recordEffects}
    (hw : w'.state.history = e :: w.state.history) (hawait : e.stmt ≠ .awaitHandler)
    (hdelete : ∀ id, e.stmt ≠ .deleteMany id) : Untried i w' := by
  unfold Untried
  rw [hw]
  refine ⟨?_, ?_⟩
  · rintro ⟨e', he', hi, hrest⟩
    rcases List.mem_cons.mp he' with rfl | hmem
    · exact hawait hrest
    · exact h.1 ⟨e', hmem, hi, hrest⟩
  · rintro ⟨e', he', hi, id, hrest⟩
    rcases List.mem_cons.mp he' with rfl | hmem
    · exact hdelete id hrest
    · exact h.2 ⟨e', hmem, hi, id, hrest⟩

/-! ## One statement -/

/-- The world after statement `o` of program `i`. -/
def Performed (i : ℕ) (o : RecordStmt) (c : RecordChoice) (w w' : W env) : Prop :=
  w'.state = ⟨(o.exec i c w.state.state).2, ⟨i, o, (o.exec i c w.state.state).1⟩ :: w.state.history⟩

/-- No statement moves the clock. -/
theorem exec_clock (i : ℕ) (o : RecordStmt) (c : RecordChoice) (s : RecordState) :
    (o.exec i c s).2.clock = s.clock := by
  have hwrite : ∀ (α : Type) (done : Except RecordErr α × RecordState), done.2.clock = s.clock →
      (c.write s done).2.clock = s.clock := by
    intro α done hdone
    rcases write_cases c s done with ⟨_, heq⟩ | ⟨_, message, heq⟩ | ⟨message, heq⟩ <;> rw [heq]
    · exact hdone
    · exact hdone
  cases o with
  | beginWrite | now | startHandler | awaitHandler => rfl
  | create route requestHash =>
    apply hwrite
    split <;> rfl
  | findUnique => exact hwrite _ _ rfl
  | updateMany id createdAt route requestHash renewedAt =>
    apply hwrite
    split
    · split <;> rfl
    · rfl
  | update id response =>
    apply hwrite
    split <;> rfl
  | deleteMany id =>
    apply hwrite
    dsimp only
    split <;> rfl

/-- A statement a program is ready for, and what it finds after it. -/
theorem safe_stmt {ε α : Type} {o : RecordStmt} {k : o.Answer → Prog recordEffects ε α}
    {Q : α → W env → Prop} {X : ε → W env → Prop} {P : W env → Prop} {w : W env}
    (hstable : (discipline env).Stable i P) (hw : P w)
    (hready : ∀ w, P w → Ready i w.state.state w.state.history o)
    (hk : ∀ w c w', P w → Promise w.state.state w.state.history → Performed i o c w w' →
      (discipline env).Safe i Q X (k (o.exec i c w.state.state).1) w') :
    (discipline env).Safe i Q X (.perform o k) w := by
  intro w₁ hrely hinv c r w₂ he
  have hP : P w₁ := hstable w w₁ hw hinv hrely
  obtain ⟨hguard, hexec⟩ := guarded_exec he
  obtain ⟨s, hs, heq⟩ := World.exec_eq_some.mp hexec
  have hs : o.exec i c w₁.state.state = (r, s) := Option.some.inj hs
  have hperformed : Performed i o c w₁ w₂ := by
    unfold Performed
    rw [hs]
    exact heq
  refine ⟨⟨?_, ?_⟩, ?_⟩
  · have hnext := Promise.exec hinv (hready w₁ hP) hguard
    show Promise w₂.state.state w₂.state.history
    rw [hperformed]
    exact hnext
  · intro j hj
    refine ⟨?_, ?_, ?_⟩
    · rw [hperformed]
      exact le_of_eq (exec_clock i o c _).symm
    · rw [hperformed]
      exact List.suffix_cons _ _
    · intro e he' hi
      rw [hperformed] at he'
      rcases List.mem_cons.mp he' with rfl | hmem
      · exact absurd hi hj.symm
      · exact hmem
  · have := hk w₁ c w₂ hP hinv hperformed
    rw [hs] at this
    exact this

/-- A statement after which an untried program is untried. -/
theorem safe_untried {ε α : Type} {o : RecordStmt} {k : o.Answer → Prog recordEffects ε α}
    {Q : α → W env → Prop} {X : ε → W env → Prop} {w : W env} (hw : Untried i w)
    (hawait : o ≠ .awaitHandler) (hdelete : ∀ id, o ≠ .deleteMany id)
    (hready : ∀ w : W env, Untried i w → Ready i w.state.state w.state.history o)
    (hk : ∀ w c w', Untried i w' → Promise w.state.state w.state.history → Performed i o c w w' →
      (discipline env).Safe i Q X (k (o.exec i c w.state.state).1) w') :
    (discipline env).Safe i Q X (.perform o k) w := by
  refine safe_stmt stable_untried hw hready ?_
  intro w c w' hP hinv hperformed
  exact hk w c w' (hP.cons (by rw [hperformed]) hawait hdelete) hinv hperformed

/-- A failed statement of the record throws, whatever is claimed of throws. -/
theorem safe_answered {α : Type} {x : Except RecordErr α} {Q : α → W env → Prop} {w : W env}
    (h : ∀ a, x = .ok a → Q a w) :
    (discipline env).Safe i Q (fun _ _ => True) (answered x : Write α) w := by
  cases x with
  | ok a => exact h a rfl
  | error e => trivial

/-! ## Claiming -/

/-- What a record that was read says is what the history says. -/
theorem told_reported {s : RecordState} {h : History} (hp : Promise s h)
    {r : IdempotencyRecord} (hr : s.record = some r) {route requestHash : String}
    {response : Response} (hreport : reported r route requestHash = .replay response) :
    StoredFor route requestHash response h := by
  unfold reported at hreport
  split at hreport
  next => cases hreport
  next hsame =>
    simp only [ne_eq, not_or, Decidable.not_not] at hsame
    split at hreport
    next status body hstatus hbody =>
      cases hreport
      obtain ⟨hanswered, hstamped⟩ := hp.stored r status body hr hstatus hbody
      have hasked := hp.asked r hr
      rw [hsame.1, hsame.2] at hasked
      exact ⟨s.claimant, hasked, hanswered, hstamped⟩
    next => cases hreport

/-- What a pass of the loop knows. -/
def Passed (i : ℕ) (route requestHash : String) (w : W env) : Option Outcome → Prop
  | some outcome => Told i route requestHash w outcome
  | none => Untried i w

/-- Reclaiming a record that was read as expired. -/
theorem reclaim_safe {w : W env} (hw : Untried i w) {existing : IdempotencyRecord}
    {route requestHash : String}
    (hexpired : existing.createdAt + IDEMPOTENCY_TTL_MS ≤ w.state.state.clock) :
    (discipline env).Safe i (fun r w => Passed i route requestHash w r) (fun _ _ => True)
      (do
        let now ← perform .now
        let claimed ← (perform (.updateMany existing.id existing.createdAt route requestHash
          now)).bind answered
        return if claimed = 1 then some (.fresh existing.id) else none : Write (Option Outcome))
      w := by
  refine safe_bind (safe_stmt (stable_untried.and (stable_past _)) ⟨hw, hexpired⟩
    (fun _ _ => trivial) ?_)
  rintro w₁ c₁ w₁' ⟨hw₁, hpast₁⟩ _ hdone₁
  refine safe_bind (safe_bind (safe_stmt (stable_untried.and (stable_past _))
    (P := fun w => Untried i w ∧ existing.createdAt + IDEMPOTENCY_TTL_MS ≤ w.state.state.clock)
    ⟨hw₁.cons (by rw [hdone₁]) (by simp) (by simp), ?_⟩ (fun _ h => h.2) ?_))
  · rw [hdone₁]
    exact hpast₁
  · rintro w₂ c₂ w₂' ⟨hw₂, _⟩ _ hdone₂
    have hafter : Untried i w₂' := hw₂.cons (by rw [hdone₂]) (by simp) (by simp)
    apply safe_answered
    intro claimed _
    show Passed i route requestHash w₂' (if claimed = 1 then _ else _)
    split
    · exact hafter
    · exact hafter

/-- A read that was answered has read the record. -/
theorem record_of_read {s : RecordState} {c : RecordChoice} {existing : Option IdempotencyRecord}
    (hread : (c.write s (.ok s.record, s)).1 = .ok existing) : s.record = existing := by
  rcases write_cases c s (.ok s.record, s) with ⟨_, heq⟩ | ⟨_, message, heq⟩ | ⟨message, heq⟩ <;>
    rw [heq] at hread
  · exact Except.ok.inj hread
  · cases hread
  · cases hread

/-- What becomes of a claim that has found a record: the record is reclaimed when its time is up,
and reported otherwise. -/
theorem found_safe {w : W env} (hw : Untried i w) {existing : IdempotencyRecord}
    {route requestHash : String}
    (htold : ∀ response, reported existing route requestHash = .replay response →
      StoredFor route requestHash response w.state.history) :
    (discipline env).Safe i (fun r w => Passed i route requestHash w r) (fun _ _ => True)
      (do
        if isExpired existing.createdAt (← perform .now) then
          let now ← perform .now
          let claimed ← (perform (.updateMany existing.id existing.createdAt route requestHash
            now)).bind answered
          return if claimed = 1 then some (.fresh existing.id) else none
        else return some (reported existing route requestHash) : Write (Option Outcome))
      w := by
  refine safe_bind (safe_stmt (P := fun w => Untried i w ∧
      ∀ response, reported existing route requestHash = .replay response →
        StoredFor route requestHash response w.state.history)
    (stable_untried.and ?_) ⟨hw, htold⟩ (fun _ _ => trivial) ?_)
  · intro w w' h _ hr response hreport
    exact (h response hreport).mono hr.history
  · rintro w₁ c₁ w₁' ⟨hw₁, htold₁⟩ _ hdone₁
    have hafter : Untried i w₁' := hw₁.cons (by rw [hdone₁]) (by simp) (by simp)
    show (discipline env).Safe i _ _ (if isExpired existing.createdAt w₁.state.state.clock =
      true then _ else _) w₁'
    by_cases hexp : isExpired existing.createdAt w₁.state.state.clock = true
    · rw [if_pos hexp]
      apply reclaim_safe hafter
      rw [hdone₁]
      show existing.createdAt + IDEMPOTENCY_TTL_MS ≤ w₁.state.state.clock
      have hexp : IDEMPOTENCY_TTL_MS ≤ w₁.state.state.clock - existing.createdAt :=
        of_decide_eq_true hexp
      have hpos : 0 < IDEMPOTENCY_TTL_MS := by decide
      omega
    · rw [if_neg hexp]
      show Told i route requestHash w₁' (reported existing route requestHash)
      cases hreport : reported existing route requestHash with
      | fresh id => exact hafter
      | replay response =>
        refine (htold₁ response hreport).mono ?_
        rw [hdone₁]
        exact List.suffix_cons _ _
      | mismatch => trivial
      | inFlight => trivial

/-- A claim that passes has claimed the record. -/
theorem claim_safe {w : W env} (hw : Untried i w) (route requestHash : String) :
    (discipline env).Safe i (fun r w => Passed i route requestHash w r) (fun _ _ => True)
      (claim route requestHash) w := by
  unfold claim
  refine safe_bind (safe_untried hw (by simp) (by simp) (fun _ _ => trivial) ?_)
  intro w₁ c₁ w₁' hw₁ _ _
  generalize ((RecordStmt.create route requestHash).exec i c₁ w₁.state.state).1 = created
  cases created with
  | ok created => exact hw₁
  | error e =>
    cases e with
    | database message => trivial
    | uniqueViolation =>
      refine safe_bind (safe_bind (safe_untried hw₁ (by simp) (by simp) (fun _ _ => trivial) ?_))
      intro w₂ c₂ w₂' hw₂ hinv₂ hdone₂
      apply safe_answered
      intro existing hread
      have hrecord : w₂.state.state.record = existing := record_of_read hread
      cases existing with
      | none => exact hw₂
      | some existing =>
        refine found_safe hw₂ fun response hreport => ?_
        -- what the record said when it was read stays true of the history
        refine (told_reported hinv₂ hrecord hreport).mono ?_
        rw [hdone₂]
        exact List.suffix_cons _ _

/-- What a request is told at the beginning is what the record says. -/
theorem beginIdempotent_safe {w : W env} (hw : Untried i w) (route requestHash : String) :
    (discipline env).Safe i (fun r w => Told i route requestHash w r) (fun _ _ => True)
      (beginIdempotent route requestHash) w := by
  unfold beginIdempotent
  refine safe_bind (safe_mono (claim_safe hw route requestHash) ?_ fun _ _ _ => trivial)
  intro first w₁ hw₁
  cases first with
  | some outcome => exact hw₁
  | none =>
    refine safe_bind (safe_mono (claim_safe hw₁ route requestHash) ?_ fun _ _ _ => trivial)
    intro second w₂ hw₂
    cases second with
    | some outcome => exact hw₂
    | none => trivial

/-! ## Running the handler -/

/-- The handler's answer is in the history. -/
theorem handle_safe {w : W env} (hw : Untried i w) :
    (discipline env).Safe i (fun res w => Answered i res w.state.history) (fun _ _ => True)
      handle w := by
  unfold handle
  refine safe_bind (safe_untried hw (by simp) (by simp) (fun _ h => h.1) ?_)
  intro w₁ c₁ w₁' hw₁ _ _
  refine safe_bind (safe_stmt stable_untried hw₁ (fun _ h => h.2) ?_)
  intro w₂ c₂ w₂' _ _ hdone₂
  have hend : ∀ res, c₂.handler.outcome = .ok res → Answered i res w₂'.state.history := by
    intro res hres
    rw [hdone₂]
    exact ⟨_, List.mem_cons_self .., rfl, hres⟩
  refine safe_ret.mpr ?_
  split
  next res houtcome => exact hend res houtcome
  next => trivial

/-- Abandoning a record keeps the invariant. -/
theorem abandonIdempotent_safe (recordId : ℕ) (w : W env) :
    (discipline env).Safe i (fun _ _ => True) (fun _ _ => True) (abandonIdempotent recordId) w := by
  unfold abandonIdempotent
  refine safe_bind (safe_stmt (P := fun _ => True) (Stable.const True) trivial
    (fun _ _ => trivial) ?_)
  intros
  exact safe_answered fun _ _ => trivial

/-- So does completing it with what was answered. -/
theorem completeIdempotent_safe (recordId : ℕ) {response : Response} {w : W env}
    (hw : Answered i response w.state.history) :
    (discipline env).Safe i (fun _ _ => True) (fun _ _ => True)
      (completeIdempotent recordId response) w := by
  unfold completeIdempotent
  refine safe_bind (safe_stmt (stable_answered response) hw (fun _ h => h) ?_)
  intros
  exact safe_answered fun _ _ => trivial

/-- A request that has claimed the record replays nothing. -/
theorem runClaimed_safe (r : Request env) (recordId : ℕ) {w : W env} (hw : Untried i w) :
    (discipline env).Safe i (fun reply _ => ∀ response, reply ≠ .replayed response)
      (fun _ _ => True) (runClaimed r recordId) w := by
  unfold runClaimed
  refine safe_handle (safe_bind (safe_mono (handle_safe hw) ?_ ?_))
  · intro res w₁ hanswered
    split
    · refine safe_bind (safe_mono (abandonIdempotent_safe recordId w₁) ?_ ?_)
      · intro _ w₂ _ response heq
        cases heq
      · intro e w₂ _
        exact safe_bind (safe_mono (abandonIdempotent_safe recordId w₂) (fun _ _ _ => trivial)
          fun _ _ _ => trivial)
    · refine safe_bind (safe_mono (completeIdempotent_safe recordId hanswered) ?_ ?_)
      · intro _ w₂ _ response heq
        cases heq
      · intro e w₂ _
        exact safe_bind (safe_mono (abandonIdempotent_safe recordId w₂) (fun _ _ _ => trivial)
          fun _ _ _ => trivial)
  · intro e w₁ _
    exact safe_bind (safe_mono (abandonIdempotent_safe recordId w₁) (fun _ _ _ => trivial)
      fun _ _ _ => trivial)

/-- What a keyed write returns. -/
def Replied (r : Request env) (reply : Reply) (w : W env) : Prop :=
  ∀ response, reply = .replayed response →
    StoredFor r.route (env.hashRequest r.body) response w.state.history

/-- A replayed response is one that was stored for the request. -/
theorem withIdempotentWrite_safe (r : Request env) {w : W env} (hw : Untried i w) :
    (discipline env).Safe i (Replied r) (fun _ _ => True) (withIdempotentWrite r) w := by
  unfold withIdempotentWrite
  refine safe_bind (safe_untried hw (by simp) (by simp) (fun _ _ => trivial) ?_)
  intro w₁ c₁ w₁' hw₁ _ _
  show (discipline env).Safe i _ _ (match c₁.refused with | some refusal => _ | none => _) w₁'
  cases c₁.refused with
  | some refusal =>
    intro response heq
    cases heq
  | none =>
    dsimp only
    split
    · intro response heq
      cases heq
    · refine safe_bind (safe_mono (beginIdempotent_safe hw₁ r.route (env.hashRequest r.body)) ?_
        fun _ _ _ => trivial)
      intro outcome w₂ hw₂
      cases outcome with
      | fresh recordId =>
        refine safe_mono (runClaimed_safe r recordId hw₂) ?_ fun _ _ _ => trivial
        intro reply w₃ hreply response heq
        exact absurd heq (hreply response)
      | replay response =>
        intro response' heq
        cases heq
        exact hw₂
      | mismatch =>
        intro response heq
        cases heq
      | inFlight =>
        intro response heq
        cases heq

/-! ## Every run -/

/-- Nothing has been asked of the key. -/
theorem promise_unused : Promise RecordState.unused [] where
  lives _ _ hc _ := nomatch hc
  asked _ hr := nomatch hr
  stored _ _ _ hr _ _ := nomatch hr
  spaced := trivial

/-- The discipline holds of every run along the condition. -/
theorem promise_holds (env : Keying) : (discipline env).Holds ⟨.unused, []⟩
    (fun r _ reply w => Replied r reply w) (fun _ _ _ _ => True) where
  inv := promise_unused
  start _ _ he := nomatch he
  outside := by
    intro w x s hinv hs
    obtain ⟨_, s', hs', rfl⟩ := guarded_outside hs
    cases x with
    | tick ms =>
      cases hs'
      refine ⟨⟨?_, hinv.asked, hinv.stored, hinv.spaced⟩, ?_⟩
      · intro i t hc hl
        refine (hinv.lives i t hc hl).imp id ?_
        intro hover
        exact le_trans hover (Nat.le_add_right _ _)
      · intro i
        exact ⟨Nat.le_add_right _ _, List.suffix_refl _, fun _ he _ => he⟩
  ret_stable := by
    intro r i reply w w' h _ hr response heq
    exact (h response heq).mono hr.history
  throw_stable _ _ _ := Stable.const True
  program := by
    intro r i w _ hstart
    apply withIdempotentWrite_safe r
    exact ⟨fun ⟨e, he, hi, _⟩ => hstart e he hi, fun ⟨e, he, hi, _⟩ => hstart e he hi⟩

end SettlementOS.Analysis.Idempotency
