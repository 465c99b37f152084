import SettlementOS.Analysis.KeyedWrites

/-!
# One key, one effect

Any number of requests with one key, interleaved in any way, with handlers that answer or
throw and with each write of the record failing or losing its answer. As long as no
record is deleted for a request whose handler has committed something, and nobody acts on
a record that was reclaimed from it, no handler starts during the life of a claim whose
handler has committed, and a replay is the stored answer to the same request. A stamp
that fails breaks this: the `catch` around it deletes the record.
-/

set_option autoImplicit false

namespace SettlementOS.Results

open SettlementOS.Computation Service Model Program.Idempotency Analysis.Idempotency

/-- A configuration of the requests with one key. -/
abbrev KeyConfig (env : Keying) : Type := (service env).Config

/-- A key nobody has presented, and no request. -/
abbrev unusedKey (env : Keying) : KeyConfig env := Config.start RecordState.unused

/-- A request that is handed a stored answer gets that of a request with its route and its hash:
that request's handler has answered so, and it has stamped that answer. -/
def ReplaysTheSame {env : Keying} (c : KeyConfig env) : Prop :=
  ∀ (j : ℕ) (t : (service env).Thread) (response : Response), c.threads[j]? = some t →
    t.rest = .ret (.replayed response) → ∃ (i : ℕ) (t' : (service env).Thread),
    c.threads[i]? = some t' ∧ t'.request.route = t.request.route ∧
      env.hashRequest t'.request.body = env.hashRequest t.request.body ∧
      Answered i response c.world.history ∧ Stamped i response c.world.history

/-! ## Requests claim under their own route and hash -/

/-- The claims a statement makes name this route and this hash. -/
def ClaimsAs (route requestHash : String) (o : RecordStmt) : Prop :=
  ∀ route' requestHash', (o = .create route' requestHash' ∨
    ∃ id createdAt renewedAt, o = .updateMany id createdAt route' requestHash' renewedAt) →
    route' = route ∧ requestHash' = requestHash

section Uses

variable {route requestHash : String}

/-- A statement is performed for its route and hash. -/
theorem uses_perform {o : RecordStmt} (h : ClaimsAs route requestHash o) :
    (perform o).Uses (ClaimsAs route requestHash) := ⟨h, fun _ => trivial⟩

/-- An answer performs nothing. -/
theorem uses_answered {α : Type} (x : Except RecordErr α) :
    (answered x : Write α).Uses (ClaimsAs route requestHash) := by
  cases x <;> trivial

/-- A statement that claims nothing. -/
theorem claimsAs_other {o : RecordStmt} (hcreate : ∀ a b, o ≠ .create a b)
    (hupdate : ∀ a b c d e, o ≠ .updateMany a b c d e) : ClaimsAs route requestHash o := by
  rintro route' requestHash' (h | ⟨_, _, _, h⟩)
  · exact absurd h (hcreate _ _)
  · exact absurd h (hupdate _ _ _ _ _)

/-- The claim is made for its route and hash. -/
theorem uses_claim : (claim route requestHash).Uses (ClaimsAs route requestHash) := by
  refine Prog.Uses.bind (uses_perform ?_) ?_
  · rintro route' requestHash' (h | ⟨_, _, _, h⟩)
    · cases h
      exact ⟨rfl, rfl⟩
    · cases h
  rintro (e | created)
  · cases e with
    | database message => trivial
    | uniqueViolation =>
      refine Prog.Uses.bind (Prog.Uses.bind (uses_perform (claimsAs_other (by simp) (by simp)))
        uses_answered) ?_
      rintro (_ | existing)
      · trivial
      · refine Prog.Uses.bind (uses_perform (claimsAs_other (by simp) (by simp))) ?_
        intro now
        split
        · refine Prog.Uses.bind (uses_perform (claimsAs_other (by simp) (by simp))) ?_
          intro renewedAt
          refine Prog.Uses.bind (Prog.Uses.bind (uses_perform ?_) uses_answered) fun _ => trivial
          rintro route' requestHash' (h | ⟨_, _, _, h⟩)
          · cases h
          · cases h
            exact ⟨rfl, rfl⟩
        · trivial
  · trivial

/-- So is the beginning of a write. -/
theorem uses_beginIdempotent :
    (beginIdempotent route requestHash).Uses (ClaimsAs route requestHash) := by
  refine Prog.Uses.bind uses_claim ?_
  rintro (_ | outcome)
  · refine Prog.Uses.bind uses_claim ?_
    rintro (_ | outcome) <;> trivial
  · trivial

/-- Abandoning a record claims nothing. -/
theorem uses_abandonIdempotent (recordId : ℕ) :
    (abandonIdempotent recordId).Uses (ClaimsAs route requestHash) :=
  Prog.Uses.bind (uses_perform (claimsAs_other (by simp) (by simp))) uses_answered

/-- Nor does the write under a claim. -/
theorem uses_runClaimed {env : Keying} (r : Request env) (recordId : ℕ) :
    (runClaimed r recordId).Uses (ClaimsAs route requestHash) := by
  refine Prog.Uses.handle (Prog.Uses.bind ?_ ?_) ?_
  · refine Prog.Uses.bind (uses_perform (claimsAs_other (by simp) (by simp))) fun _ => ?_
    refine Prog.Uses.bind (uses_perform (claimsAs_other (by simp) (by simp))) fun handler => ?_
    cases handler.outcome <;> trivial
  · intro res
    split
    · exact Prog.Uses.bind (uses_abandonIdempotent recordId) fun _ => trivial
    · exact Prog.Uses.bind (Prog.Uses.bind (uses_perform (claimsAs_other (by simp) (by simp)))
        uses_answered) fun _ => trivial
  · intro e
    exact Prog.Uses.bind (uses_abandonIdempotent recordId) fun _ => trivial

/-- A request claims for its own route and hash. -/
theorem uses_withIdempotentWrite {env : Keying} (r : Request env) :
    (withIdempotentWrite r).Uses (ClaimsAs r.route (env.hashRequest r.body)) := by
  refine Prog.Uses.bind (uses_perform (claimsAs_other (by simp) (by simp))) ?_
  rintro (_ | refusal)
  · dsimp only
    split
    · trivial
    · refine Prog.Uses.bind uses_beginIdempotent ?_
      rintro (recordId | response | _ | _)
      · exact uses_runClaimed r recordId
      all_goals trivial
  · trivial

end Uses

/-- Who asked for a route and a hash is a request with that route and that hash. -/
theorem request_of_asked {env : Keying} {c : KeyConfig env} (h : (unusedKey env).Reaches c) {i : ℕ}
    {route requestHash : String} (ha : Asked i route requestHash c.world.history) :
    ∃ t, c.threads[i]? = some t ∧ t.request.route = route ∧
      env.hashRequest t.request.body = requestHash := by
  obtain ⟨e, he, hi, hstmt⟩ := ha
  have hlen : i < c.threads.length := by
    have hknown := (h.confined (U := fun _ => True) (A := fun _ => False)
      (fun _ _ hA => hA.elim)).known e he
    rw [hi] at hknown
    exact hknown
  obtain ⟨t, ht⟩ : ∃ t, c.threads[i]? = some t := ⟨_, List.getElem?_eq_getElem hlen⟩
  have hconf := h.confined
    (U := ClaimsAs t.request.route (env.hashRequest t.request.body)) (A := fun r => r = t.request)
    fun _ r hr => hr ▸ uses_withIdempotentWrite r
  have hown := (hconf.rest i t ht rfl).2 e he hi route requestHash hstmt
  exact ⟨t, ht, hown.1.symm, hown.2.symm⟩

/-! ## The result -/

/-- **One key, one effect.** Along every run in which no record is deleted for a request whose
handler has committed something, and no request starts its handler, stamps or deletes once its
record was reclaimed, no handler starts during the life of a claim whose handler has committed,
and every replay is the stored answer to a request with the same route and hash. -/
theorem keyed_once {env : Keying} {c : KeyConfig env}
    (h : (unusedKey env).Along (KeepsPromise env) c) :
    NeverReruns c.world.history ∧ ReplaysTheSame c := by
  have hkept := Discipline.sound (promise_holds env) h.guarded
  refine ⟨hkept.inv.spaced, ?_⟩
  intro j t response ht hrest
  have hsafe := hkept.safe j ⟨t.request, t.rest⟩ (by
    unfold Config.lift
    rw [List.getElem?_map, ht]
    rfl)
  simp only [hrest] at hsafe
  obtain ⟨i, hasked, hanswered, hstamped⟩ := hsafe response rfl
  obtain ⟨t', ht', hroute, hhash⟩ := request_of_asked h.reaches hasked
  exact ⟨i, t', ht', hroute, hhash, hanswered, hstamped⟩

/-! ## Sample runs -/

/-- Bodies that are their own fingerprint. -/
def sampleKey : Keying where
  Body := String
  key := ⟨"k", by decide⟩
  hashRequest body := body.getD ""
  isObject _ := true

/-- Creating a payment with the sample key. -/
def sampleCreate : Request sampleKey := ⟨"POST /api/payments", some "body", true⟩

/-- The handler answers and has created the payment. -/
def created201 : RecordChoice := { handler := ⟨.ok ⟨201, "pay_1"⟩, true⟩ }

/-- A request that goes through, and the same request again. -/
def retriedRun : List (Service.Move (service sampleKey)) :=
  [.start sampleCreate, .perform 0 {}, .perform 0 {}, .perform 0 {}, .perform 0 created201,
    .perform 0 {}, .start sampleCreate, .perform 1 {}, .perform 1 {}, .perform 1 {}, .perform 1 {}]

/-- The second request was handed a stored answer. -/
def answeredAgain (c : KeyConfig sampleKey) : Bool :=
  match (c.threads[1]?.map fun (t : (service sampleKey).Thread) => t.rest) with
  | some (.ret reply) => decide (reply = .replayed ⟨201, "pay_1"⟩)
  | _ => false

/-- The retry is answered with what the first request was. -/
theorem keyed_once_retried : ∃ c : KeyConfig sampleKey, (unusedKey sampleKey).Reaches c ∧
    answeredAgain c = true ∧ NeverReruns c.world.history ∧ ReplaysTheSame c := by
  obtain ⟨c, hc, hP⟩ := Config.Along.of_any (g := KeepsPromise sampleKey) (c := unusedKey sampleKey)
    retriedRun (P := answeredAgain) (by decide +kernel)
  exact ⟨c, hc.reaches, hP, keyed_once hc⟩

/-- The first request creates its payment and cannot stamp the answer; the `catch` deletes the
record, and the same request again runs the handler again. -/
def unstampedRun : List (Service.Move (service sampleKey)) :=
  [.start sampleCreate, .perform 0 {}, .perform 0 {}, .perform 0 {}, .perform 0 created201,
    .perform 0 { fails := some ⟨"connection lost", false⟩ }, .perform 0 {},
    .start sampleCreate, .perform 1 {}, .perform 1 {}, .perform 1 {}]

/-- The last thing that happened is the start of a handler while the first request's claim lives
and its handler has committed. -/
def runAgain (c : KeyConfig sampleKey) : Bool :=
  match c.world.history with
  | ⟨_, .startHandler, now⟩ :: h =>
    committed 0 h && claimedAt 0 h == some 0 && decide (now < IDEMPOTENCY_TTL_MS)
  | _ => false

/-- Without the condition a handler whose effect is committed is run again at once. -/
theorem keyed_twice : ¬ ∀ (env : Keying) (c : KeyConfig env), (unusedKey env).Reaches c →
    NeverReruns c.world.history ∧ ReplaysTheSame c := by
  intro hall
  obtain ⟨c, hc, hP⟩ := Config.Reaches.of_any (c := unusedKey sampleKey) unstampedRun
    (P := runAgain) (by decide +kernel)
  have hnever := (hall sampleKey c hc).1
  unfold runAgain at hP
  split at hP
  next now h heq =>
    simp only [Bool.and_eq_true, beq_iff_eq, decide_eq_true_eq] at hP
    rw [heq] at hnever
    have hlate := hnever.2 0 0 hP.1.1 hP.1.2
    exact absurd (le_trans (Nat.le_add_left _ _) hlate) (not_le_of_gt hP.2)
  next => cases hP

end SettlementOS.Results
