import SettlementOS.Analysis.Execution

/-!
# The execution lease

The lease is claimed by one conditional update and given back by another. When it is free at a
status at which it can be claimed, nobody is inside: that is what the claim of another attempt
establishes, and what makes the row it was read from a true copy.
-/

set_option autoImplicit false

namespace SettlementOS.Analysis

open SettlementOS.Computation Model Program Discipline

variable {env : Env} {i : ℕ} {p : Payment} {w w' : World env}

/-- The statuses at which an attempt claims the lease. -/
def claimableStates : List PaymentStatus := [.approved, .payoutPending, .compensationPending]

/-- Whoever finds the lease free at such a status finds nobody inside. -/
theorem nobody_inside (hinv : Inv w) (hs : w.state.payment.status ∈ claimableStates)
    (hfree : w.state.payment.executionLeaseId = none) (j : ℕ) : inside j w.history = false := by
  by_contra hj
  rw [Bool.not_eq_false] at hj
  rcases hinv.lease.held j hj with h | h
  · rw [hfree] at h
    cases h
  · revert hs h
    generalize w.state.payment.status = s
    cases s <;> decide

/-- The row under a lease that has just been claimed. -/
def leased (p : Payment) (i now : ℕ) : Payment :=
  p.apply { executionLeaseId := some (some i), leasedAt := some (some now) }

/-- Claiming the lease keeps the invariant. -/
theorem inv_claim (now : ℕ) (status : PaymentStatus) (hinv : Inv w)
    (hs : w.state.payment.status ∈ claimableStates)
    (hfree : w.state.payment.executionLeaseId = none) :
    Inv (⟨{ w.state with payment := leased w.state.payment i now },
      ⟨i, .claimLease i status, .ok true⟩ :: w.history⟩ : World env) := by
  have hnone := nobody_inside hinv hs hfree
  have hin : ∀ j, inside j (⟨i, .claimLease i status, .ok true⟩ :: w.history) = true ↔ j = i := by
    intro j
    by_cases hj : i = j
    · simp [inside, claims, hj]
    · simp [inside, hj, Ne.symm hj, hnone]
  have hrelease : w.state.payment.status ∉ leaseReleaseStates := by
    revert hs
    generalize w.state.payment.status = s
    cases s <;> decide
  have hrank : 4 ≤ w.state.payment.status.rank := by
    revert hs
    generalize w.state.payment.status = s
    cases s <;> decide
  refine ⟨⟨fun j k hj hk => ?_, fun j hj => ?_, fun _ => hrelease, fun _ => hrank⟩,
    ⟨fun n k hk => hinv.chain.counted n k hk, fun tx ht => hinv.chain.home tx ht⟩,
    hinv.truth.congr ⟨rfl, rfl, rfl, rfl, rfl⟩ rfl rfl rfl rfl,
    ⟨fun e he t hsend => ?_, hinv.trace.reserved, fun hst j hj => ?_, fun hb => ?_⟩, fun hno => ?_⟩
  · exact ((hin j).mp hj).trans ((hin k).mp hk).symm
  · obtain rfl := (hin j).mp hj
    exact .inl rfl
  · rcases List.mem_cons.mp he with rfl | hmem
    · cases hsend
    · exact hinv.trace.sent e hmem t hsend
  · exact .inl (hinv.trace.stranded hst j hj)
  · exact hinv.trace.badRead ((badRead_cons rfl).mp hb)
  · have := hno i
    rw [(hin i).mpr rfl] at this
    cases this

/-- The attempt has claimed the lease, in a world with `P`. -/
structure ClaimedIn (i : ℕ) (P : World env → Prop) (status : PaymentStatus) (w w' : World env) :
    Prop where
  inv : Inv w
  before : P w
  found : w.state.payment.status = status
  nobody : ∀ j, inside j w.history = false
  after : Inv w'
  state : ∃ now, w'.state = { w.state with payment := leased w.state.payment i now }
  history : w'.history = ⟨i, .claimLease i status, .ok true⟩ :: w.history

/-- Claiming the lease. -/
theorem safe_claimLease {P : World env → Prop} {status : PaymentStatus}
    (hst : (sagaDiscipline env).Stable i P) (hw : P w) (hs : status ∈ claimableStates) :
    (sagaDiscipline env).Safe i
      (fun claimed w' => if claimed then ∃ w, ClaimedIn i P status w w' else P w')
      (fun _ w => P w) (call (.claimLease i status)) w := by
  refine safe_call hst hw ?_
  intro w hinv hP c r w' he
  have hkeep : ∀ r : Except Err Bool, r ≠ .ok true →
      (sagaDiscipline env).Keeps i w ⟨w.state, ⟨i, .claimLease i status, r⟩ :: w.history⟩ ∧
        P ⟨w.state, ⟨i, .claimLease i status, r⟩ :: w.history⟩ := by
    intro r hr
    have hreads : Reads ⟨i, .claimLease i status, r⟩ := by
      rcases r with e | a
      · exact ⟨rfl, rfl, rfl, rfl, rfl⟩
      · cases a
        · exact ⟨rfl, rfl, rfl, rfl, rfl⟩
        · exact absurd rfl hr
    exact keeps_reads hst hinv hP (.refl _) hreads (badRead_cons rfl).mp
  rcases exec_cases he with ⟨m, rfl, rfl⟩ | ⟨s', hp, rfl⟩
  · obtain ⟨hk, hP'⟩ := hkeep (.error (Stmt.fault (.claimLease i status) m)) (by simp)
    exact ⟨hk, fun a ha => (by cases ha), fun _ _ => hP'⟩
  · simp only [Stmt.perform] at hp
    split at hp
    · rename_i hcond
      simp only [Option.some.injEq, Prod.mk.injEq] at hp
      obtain ⟨rfl, rfl⟩ := hp
      obtain ⟨hstatus, hfree⟩ := hcond
      have hmem : w.state.payment.status ∈ claimableStates := hstatus ▸ hs
      have hnone := nobody_inside hinv hmem hfree
      have hinv' := inv_claim (i := i) c.now status hinv hmem hfree
      refine ⟨⟨hinv', fun j hj => ?_⟩, fun a ha => ?_, fun e he => by cases he⟩
      · have hne : (⟨i, .claimLease i status, .ok true⟩ : Entry sagaEffects).tid ≠ j :=
          fun h => hj h.symm
        exact {
          evolves := ⟨.refl _, rfl, fun _ => rfl, .refl _, fun _ => .inl rfl, fun _ => rfl⟩
          history := List.suffix_cons _ _
          inside := inside_cons_ne hne
          sentSettle := sentSettle_cons fun h => absurd h hne
          recorded := recordedSettle_cons fun h => absurd h hne
          alone := fun hin => by simp [hnone] at hin
          lease := fun hl => by simp [hfree] at hl }
      · cases ha
        exact ⟨w, hinv, hP, hstatus, hnone, hinv', ⟨c.now, rfl⟩, rfl⟩
    · simp only [Option.some.injEq, Prod.mk.injEq] at hp
      obtain ⟨rfl, rfl⟩ := hp
      obtain ⟨hk, hP'⟩ := hkeep (.ok false) (by simp)
      refine ⟨hk, fun a ha => ?_, fun e he => by cases he⟩
      cases ha
      exact hP'

/-- Two rows that differ in the lease at most. -/
structure SameButLease (p p' : Payment) : Prop extends SameView p p' where
  identity : identity p' = identity p

/-- The source token is a matter of the identity. -/
theorem sourceToken_congr {p p' : Payment} (h : identity p' = identity p) :
    sourceToken env p' = sourceToken env p := by
  simp only [identity, Prod.mk.injEq] at h
  rw [sourceToken, sourceToken, h.2.2.2.1, h.2.2.2.2.2]

/-- Giving the lease back, or failing to, keeps the discipline. -/
theorem keeps_release (hinv : Inv w) (h : Leaves i w) {row : Payment} {r : Except Err Unit}
    (hrow : SameButLease w.state.payment row)
    (hlease : row.executionLeaseId ≠ none → w.state.payment.executionLeaseId ≠ none)
    (hothers : ∀ j, j ≠ i → w.state.payment.executionLeaseId = some j →
      row.executionLeaseId = some j) :
    (sagaDiscipline env).Keeps i w ⟨{ w.state with payment := row },
      ⟨i, .releaseLease i, r⟩ :: w.history⟩ := by
  have hins : ∀ j, j ≠ i →
      inside j (⟨i, .releaseLease i, r⟩ :: w.history) = inside j w.history :=
    fun j hj => inside_cons_ne fun hi => hj hi.symm
  have hnone : ∀ j, inside j (⟨i, .releaseLease i, r⟩ :: w.history) = false := by
    intro j
    by_cases hj : j = i
    · exact hj ▸ inside_gaveBack (e := ⟨i, .releaseLease i, r⟩) rfl
    · rw [hins j hj, ← Bool.not_eq_true]
      exact fun hin => hj (hinv.lease.alone j i hin h.inside)
  have hev : Evolves w.state { w.state with payment := row } :=
    ⟨hrow.status ▸ .refl _, hrow.identity, fun _ => hrow.quote, .refl _, fun _ => .inl rfl,
      fun _ => rfl⟩
  refine ⟨⟨⟨fun j k hj => by simp [hnone] at hj, fun j hj => by simp [hnone] at hj,
    fun hl => ?_, ?_⟩, ⟨fun n k hk => hinv.chain.counted n k hk, fun tx ht hk => ?_⟩,
    hinv.truth.congr hrow.toSameView rfl rfl rfl rfl, ⟨fun e he t hsend => ?_,
    hinv.trace.reserved, fun hst j hj => ?_, fun hb => ?_⟩, fun _ hok => ?_⟩, fun j hj => ?_⟩
  · simpa only [hrow.status] using hinv.lease.live (hlease hl)
  · rintro (⟨j, hj⟩ | hl)
    · simp [hnone] at hj
    · simpa only [hrow.status] using hinv.lease.early (.inr (hlease hl))
  · simpa only [hrow.sourceNetwork] using hinv.chain.home tx ht hk
  · rcases List.mem_cons.mp he with rfl | hmem
    · cases hsend
    · exact hinv.trace.sent e hmem t hsend
  · exact .inl (hinv.trace.stranded (hrow.status ▸ hst) j hj)
  · simpa only [hrow.status] using hinv.trace.badRead ((badRead_cons rfl).mp hb)
  · obtain ⟨hm, hst, hsp, hc⟩ := h.rest hok.tail
    refine ⟨?_, ?_, fun hcs hr => ?_, ?_⟩ <;>
      simp only [hrow.status, sourceToken_congr hrow.identity]
    · exact hm
    · exact hst
    · exact hsp hcs.1 hr
    · exact hc
  · have hne : (⟨i, .releaseLease i, r⟩ : Entry sagaEffects).tid ≠ j := fun h => hj h.symm
    exact {
      evolves := hev
      history := List.suffix_cons _ _
      inside := inside_cons_ne hne
      sentSettle := sentSettle_cons fun h => absurd h hne
      recorded := recordedSettle_cons fun h => absurd h hne
      alone := fun hin => absurd (hinv.lease.alone j i hin h.inside) hj
      lease := fun hl => .inl (hothers j hj hl) }

/-- Giving the lease back from where a payment may be left. -/
theorem safe_releaseLease (h : Leaves i w) :
    (sagaDiscipline env).Safe i (fun _ w => inside i w.history = false)
      (fun _ w => inside i w.history = false) (call (.releaseLease i)) w := by
  refine safe_call stable_leaves h ?_
  intro w hinv h c r w' he
  have hout : inside i (⟨i, .releaseLease i, r⟩ :: w.history) = false :=
    inside_gaveBack (e := ⟨i, .releaseLease i, r⟩) rfl
  have hsame : SameButLease w.state.payment w.state.payment := ⟨⟨rfl, rfl, rfl, rfl, rfl⟩, rfl⟩
  rcases exec_cases he with ⟨m, rfl, rfl⟩ | ⟨s', hp, rfl⟩
  · exact ⟨keeps_release hinv h hsame id fun _ _ hl => hl, fun _ _ => hout, fun _ _ => hout⟩
  · simp only [Stmt.perform] at hp
    split at hp
    · rename_i hl
      simp only [Option.some.injEq, Prod.mk.injEq] at hp
      obtain ⟨rfl, rfl⟩ := hp
      refine ⟨keeps_release hinv h ⟨⟨rfl, rfl, rfl, rfl, rfl⟩, rfl⟩ (fun hne => absurd rfl hne)
        fun j hj hl' => ?_, fun _ _ => hout, fun _ _ => hout⟩
      rw [hl, Option.some.injEq] at hl'
      exact absurd hl'.symm hj
    · simp only [Option.some.injEq, Prod.mk.injEq] at hp
      obtain ⟨rfl, rfl⟩ := hp
      exact ⟨keeps_release hinv h hsame id fun _ _ hl => hl, fun _ _ => hout, fun _ _ => hout⟩

/-- `withExecutionLease`: the leased section starts from the claim and ends where a payment may be
left; then the attempt is outside again. -/
theorem withExecutionLease_safe {α : Type} {P : World env → Prop} {paymentId : String}
    {status : PaymentStatus} {fn : Saga α} (hst : (sagaDiscipline env).Stable i P) (hw : P w)
    (hout : ∀ w, P w → inside i w.history = false) (hs : status ∈ claimableStates)
    (hfn : ∀ w w', ClaimedIn i P status w w' →
      (sagaDiscipline env).Safe i (fun _ w => Leaves i w) (fun _ w => Leaves i w) fn w') :
    (sagaDiscipline env).Safe i (fun _ w => inside i w.history = false)
      (fun _ w => inside i w.history = false) (withExecutionLease paymentId i status fn) w := by
  refine safe_bind (safe_mono (safe_claimLease hst hw hs) ?_ fun _ w hx => hout w hx)
  intro claimed w h
  cases claimed with
  | false => exact hout w h
  | true =>
    obtain ⟨w₀, hc⟩ := h
    refine safe_andFinally (safe_mono (hfn w₀ w hc) ?_ ?_)
    · exact fun _ w hl => safe_ignoring (safe_releaseLease hl)
    · exact fun _ w hl => safe_ignoring (safe_releaseLease hl)

end SettlementOS.Analysis
