import SettlementOS.Analysis.Exits
import SettlementOS.Results.Terminal

/-!
# Which transfers the row carries

When an execution or a repair ends, the row should carry the hash of each transfer it broadcast
and was not told the failure of: a reconcile starts from that hash. The write of the hash comes
right after the broadcast, and may fail. The hash still reaches the row when the receipt can be
read in the same attempt, or, for a compensation, when the row carries no hash of an earlier
one; otherwise it is lost.
-/

set_option autoImplicit false

namespace SettlementOS.Results

open SettlementOS.Computation Service Discipline Model Program Analysis

variable {env : Env} {new : NewPayment}

/-! ## A payout's hash stays on the row -/

/-- What was once written as the hash of the payout is on the row. -/
theorem payout_held {c : Config env} (h : Reachable env new c) {e : Entry sagaEffects}
    {hash : Hash} (he : e ∈ c.world.history)
    (hp : persists .destinationPayout ⟨e.stmt, e.answer⟩ = some hash) :
    c.world.state.payment.destinationTxHash = some hash := by
  refine Config.Reaches.induct (P := fun (c : Config env) => ∀ e ∈ c.world.history, ∀ hash,
    persists .destinationPayout ⟨e.stmt, e.answer⟩ = some hash →
      c.world.state.payment.destinationTxHash = some hash) (by simp [created, Config.start])
    ?_ h e he hash hp
  intro c₁ m c₂ hreach ih hm e he hash hp
  rcases Config.step_eq_some hm with ⟨r, -, rfl⟩ | ⟨i, ch, r, o, k, a, w, -, -, hexec, rfl⟩ |
    ⟨x, s, -, hs, rfl⟩
  · exact ih e he hash hp
  · obtain ⟨s, hs, rfl⟩ := World.exec_eq_some.mp hexec
    have hrow : hashOf .destinationPayout s.payment =
        (persists .destinationPayout ⟨o, a⟩ <|> hashOf .destinationPayout c₁.world.state.payment) :=
      hashOf_of_exec hs .destinationPayout
    rcases List.mem_cons.mp he with rfl | he
    · exact hrow.trans (by simp [hp])
    · have hold := ih e he hash hp
      rcases hnew : persists .destinationPayout ⟨o, a⟩ with _ | hash'
      · exact hrow.trans (by rw [hnew]; exact hold)
      · -- another payout was written, but there is only one
        have hnow : s.payment.destinationTxHash = some hash' := hrow.trans (by rw [hnew]; rfl)
        have hinv' := Reachable.inv (hreach.tail hm)
        have hevolves := Reachable.evolves hreach ((Config.Reaches.refl c₁).tail hm)
        have hkept := hevolves.sent ((Reachable.inv hreach).truth.payoutHash _ hold)
        rw [hinv'.truth.onePayout _ _ hkept (hinv'.truth.payoutHash _ hnow)]
        exact hnow
  · rw [(mine_rows hs).1]
    exact ih e he hash hp

/-- What is on a program's own trail is in the history. -/
theorem since_mem {i : ℕ} {h : History} {leg : Leg} {hash : Hash} {since : Trail}
    (hs : Since (trail i h) leg hash since) {x : Event sagaEffects} (hx : x ∈ since) :
    (⟨i, x.stmt, x.answer⟩ : Entry sagaEffects) ∈ h := by
  obtain ⟨b, past, heq, -⟩ := hs
  exact mem_of_trail (heq ▸ List.mem_append_left _ hx)

/-! ## What a request leaves behind -/

/-- The step that ends a request leaves each of its transfers resolved. -/
theorem done_of_ended {c c' : Config env} (h : Reachable env new c) {i : ℕ} {ch : Choice}
    (hm : c.step (.perform i ch) = some c') {t : (sagaService env).Thread}
    (ht : c'.threads[i]? = some t) (hend : t.ended = true) : Done i c'.world := by
  have hprog : ∀ (j : ℕ) (r : Request) (w : World env), Inv w → Fresh j w.history →
      trail j w.history = [] →
      (sagaDiscipline env).Finishes j (fun _ => Done j) (fun _ => Tidy j) (r.program env j) w := by
    intro j r w _ _ hnil
    refine finishes_program fun _ => ?_
    rw [hnil]
    exact sealed_nil
  have hfin := (saga_holds new).finished hprog h hm ht
  obtain ⟨r, rest⟩ := t
  cases rest with
  | ret a => exact hfin
  | throw e => exact Tidy.done hfin
  | perform o k => cases hend

/-- **The hash of a transfer.** When a request ends, and no database statement of it failed but
those right after a broadcast, the row carries the hash of a transfer it broadcast and was not
told the failure of if and only if the write right after the broadcast did not fail or what was
read afterwards made up for it. -/
theorem hash_carried {c c' : Config env} (h : Reachable env new c) {i : ℕ} {ch : Choice}
    (hm : c.step (.perform i ch) = some c') {t : (sagaService env).Thread}
    (ht : c'.threads[i]? = some t) (hend : t.ended = true)
    (hlater : LaterSucceed (trail i c'.world.history)) {leg : Leg} {hash : Hash} {since : Trail}
    (hs : Since (trail i c'.world.history) leg hash since) :
    Carried leg hash since c'.world.state.payment ↔ Recoverable leg hash since := by
  have hreach : Reachable env new c' := h.tail hm
  cases done_of_ended h hm ht hend hlater leg hash since hs with
  | closed hclosed =>
    refine iff_of_true ?_ hclosed.recoverable
    rcases hclosed.outcome with hreverted | ⟨rfl, x, hx, hp⟩
    · exact .inl hreverted
    · exact .inr (payout_held hreach (since_mem hs hx) hp)
  | carried _ hrow hrec => exact iff_of_true (.inr hrow) hrec
  | lost _ hnot hrec => exact iff_of_false hnot hrec

/-! ## Two payouts whose write fails -/

/-- The payout of the sample payment is broadcast, and the write of its hash fails. -/
def unwrittenRun : List (Move sampleEnv) :=
  quotedRun ++ .start (.execute "ops" none) :: steps 1 14 ++ mine 0 :: steps 1 3 ++
    mine 1 :: steps 1 4 ++ mine 2 :: steps 1 4 ++ [failure 1]

/-- The payout is mined at once, and its receipt is read. -/
def recoveredRun : List (Move sampleEnv) := unwrittenRun ++ mine 3 :: steps 1 8

/-- The receipt is not read. -/
def unreadRun : List (Move sampleEnv) := unwrittenRun ++ steps 1 1 ++ failure 1 :: steps 1 1

/-- The next step of the execution ends it, nothing but the write of the hash having failed; what
was broadcast at place `n` of its trail is the payout with hash 3, and `P` holds of what came
after it and of the row. -/
def endsWith (n : ℕ) (P : Trail → Payment → Bool) (c : Config sampleEnv) : Bool :=
  (c.step (.perform 1 {})).any fun c' =>
    (c'.threads[1]?).any Thread.ended && decide (LaterSucceed (trail 1 c'.world.history)) &&
      ((trail 1 c'.world.history)[n]?.bind broadcast) == some (.destinationPayout, 3) &&
      P ((trail 1 c'.world.history).take n) c'.world.state.payment

/-- What `endsWith` says. -/
theorem ends_of_endsWith {n : ℕ} {P : Trail → Payment → Bool} {c : Config sampleEnv}
    (h : endsWith n P c = true) : ∃ c' t since, c.step (.perform 1 {}) = some c' ∧
      c'.threads[1]? = some t ∧ t.ended = true ∧ LaterSucceed (trail 1 c'.world.history) ∧
      Since (trail 1 c'.world.history) .destinationPayout 3 since ∧
      P since c'.world.state.payment = true := by
  obtain ⟨c', hc', h⟩ := (Option.any_eq_true _ _).mp h
  simp only [Bool.and_eq_true, beq_iff_eq, decide_eq_true_eq] at h
  obtain ⟨⟨⟨hended, hlater⟩, hb⟩, hP⟩ := h
  obtain ⟨t, ht, hend⟩ := (Option.any_eq_true _ _).mp hended
  obtain ⟨b, hn, hb⟩ := Option.bind_eq_some_iff.mp hb
  exact ⟨c', t, _, hc', ht, hend, hlater, since_of_getElem? hn hb, hP⟩

/-- The sample payment, whose payout's receipt was read: the row carries the hash. -/
theorem hash_carried_recovered : ∃ (c : Config sampleEnv) (since : Trail),
    Reachable sampleEnv samplePayment c ∧ LaterSucceed (trail 1 c.world.history) ∧
    Since (trail 1 c.world.history) .destinationPayout 3 since ∧ WriteFailed since ∧
    Carried .destinationPayout 3 since c.world.state.payment := by
  obtain ⟨c, hc, hP⟩ := reached sampleEnv samplePayment recoveredRun (P := endsWith 10
    fun since _ => decide (WriteFailed since) && decide (ReceiptRead 3 since)) (by decide +kernel)
  obtain ⟨c', t, since, hm, ht, hend, hlater, hs, hP⟩ := ends_of_endsWith hP
  obtain ⟨hfailed, hread⟩ := (Bool.and_eq_true _ _).mp hP
  exact ⟨c', since, hc.tail hm, hlater, hs, of_decide_eq_true hfailed,
    (hash_carried hc hm ht hend hlater hs).mpr fun _ => .inl (of_decide_eq_true hread)⟩

/-- The sample payment, whose payout's receipt was not read: the execution returns, and the row
carries no hash. -/
theorem hash_not_carried : ¬ ∀ (env : Env) (new : NewPayment) (c c' : Config env) (i : ℕ)
    (ch : Choice) (t : (sagaService env).Thread) (leg : Leg) (hash : Hash) (since : Trail),
    Reachable env new c → c.step (.perform i ch) = some c' → c'.threads[i]? = some t →
    t.ended = true → LaterSucceed (trail i c'.world.history) →
    Since (trail i c'.world.history) leg hash since →
    Carried leg hash since c'.world.state.payment := by
  intro hall
  obtain ⟨c, hc, hP⟩ := reached sampleEnv samplePayment unreadRun (P := endsWith 5
    fun since p => !decide (ToldReverted 3 since) && p.destinationTxHash.isNone)
    (by decide +kernel)
  obtain ⟨c', t, since, hm, ht, hend, hlater, hs, hP⟩ := ends_of_endsWith hP
  simp only [Bool.and_eq_true, Bool.not_eq_true', decide_eq_false_iff_not,
    Option.isNone_iff_eq_none] at hP
  rcases hall sampleEnv samplePayment c c' 1 {} t _ _ since hc hm ht hend hlater hs with
    hreverted | hrow
  · exact hP.1 hreverted
  · rw [show hashOf .destinationPayout c'.world.state.payment = none from hP.2] at hrow
    cases hrow

end SettlementOS.Results
