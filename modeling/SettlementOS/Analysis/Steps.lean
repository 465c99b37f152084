import SettlementOS.Analysis.Invariant

/-!
# One statement under the discipline

For each kind of statement, the world after it and what the attempt may go on with: reads
and audits keep whatever the attempt knows (`safe_plain` and the lemmas after it); the
writes of an attempt inside its leased section keep the invariant when their conditions
hold, and hand back the exact world they leave (`safe_inside`, `safe_transition`).
-/

set_option autoImplicit false

namespace SettlementOS.Analysis

open SettlementOS.Computation Model Program Discipline

variable {env : Env} {i : ℕ} {w : World env}

/-- Performing one statement. -/
theorem safe_call {o : Stmt} {P : World env → Prop} {Q : o.Result → World env → Prop}
    {X : Err → World env → Prop} (hst : (sagaDiscipline env).Stable i P) (hw : P w)
    (hstep : ∀ w, Inv w → P w → ∀ c (r : Except Err o.Result) w', w.exec i o c = some (r, w') →
      (sagaDiscipline env).Keeps i w w' ∧
        (∀ a, r = .ok a → Q a w') ∧ ∀ e, r = .error e → X e w') :
    (sagaDiscipline env).Safe i Q X (call o) w := by
  refine safe_perform (R := fun (r : Except Err o.Result) w' =>
    (∀ a, r = .ok a → Q a w') ∧ ∀ e, r = .error e → X e w') hst hstep hw ?_
  intro r w' hr
  exact safe_ofExcept hr.1 hr.2

/-- A computation that performs no statement. -/
theorem safe_lift {α : Type} {x : Except Err α} {P : World env → Prop} (hw : P w) :
    (sagaDiscipline env).Safe i (fun a w => P w ∧ x = .ok a) (fun e w => P w ∧ x = .error e)
      (lift x) w :=
  safe_ofExcept (fun _ h => ⟨hw, h⟩) fun _ h => ⟨hw, h⟩

/-! ## Reads -/

/-- A step that changes no row and no chain keeps the discipline and what the attempt knows. -/
theorem keeps_reads {P : World env → Prop} (hst : (sagaDiscipline env).Stable i P) (hinv : Inv w)
    (hP : P w) {s : State} (hs : SameCore w.state s) {e : Entry sagaEffects} (he : Reads e)
    (hb : BadRead (e :: w.history) → BadRead w.history) :
    (sagaDiscipline env).Keeps i w ⟨s, e :: w.history⟩ ∧ P ⟨s, e :: w.history⟩ := by
  have hinv' : Inv (⟨s, e :: w.history⟩ : World env) := inv_reads hinv hs he fun h => .inl (hb h)
  have hrely : ∀ j, Rely j w ⟨s, e :: w.history⟩ :=
    fun j => rely_reads hs he j fun _ => hb
  exact ⟨⟨hinv', fun j _ => hrely j⟩, hst _ _ hP hinv' (hrely i)⟩

/-- A statement that changes no row and no chain keeps what the attempt knows. -/
theorem safe_plain {o : Stmt} {P : World env → Prop} {A : Except Err o.Result → State → Prop}
    (hst : (sagaDiscipline env).Stable i P) (hw : P w)
    (hplain : ∀ r, plain ⟨i, o, r⟩ = true)
    (hcore : ∀ c s r s', o.perform c s = some (r, s') → SameCore s s' ∧ A r s') :
    (sagaDiscipline env).Safe i (fun a w => P w ∧ A (.ok a) w.state)
      (fun e w => P w ∧ ((o.isDatabase = true → ¬ DbOk w.history) ∨ A (.error e) w.state))
      (call o) w := by
  refine safe_call hst hw ?_
  intro w hinv hP c r w' he
  obtain ⟨hreads, hesc⟩ := reads_of_plain (hplain r)
  have hkeep : ∀ s', SameCore w.state s' →
      (sagaDiscipline env).Keeps i w ⟨s', ⟨i, o, r⟩ :: w.history⟩ ∧
        P ⟨s', ⟨i, o, r⟩ :: w.history⟩ :=
    fun s' hs => keeps_reads hst hinv hP hs hreads (badRead_cons hesc).mp
  rcases exec_cases he with ⟨m, rfl, rfl⟩ | ⟨s', hp, rfl⟩
  · obtain ⟨hk, hP'⟩ := hkeep w.state (.refl _)
    refine ⟨hk, fun a ha => (by cases ha), fun e _ => ⟨hP', .inl fun ho => ?_⟩⟩
    exact not_dbOk (dbFails_fault ho m)
  · obtain ⟨hs, hA⟩ := hcore c _ r s' hp
    obtain ⟨hk, hP'⟩ := hkeep s' hs
    exact ⟨hk, fun a ha => ⟨hP', ha ▸ hA⟩, fun e he => ⟨hP', .inr (he ▸ hA)⟩⟩

section Reads

variable {P : World env → Prop} (hst : (sagaDiscipline env).Stable i P) (hw : P w)
include hst hw

/-- Recording an event. -/
theorem safe_audit (action : String) (detail : Detail) (id : String) :
    (sagaDiscipline env).Safe i (fun _ w => P w) (fun _ w => P w ∧ ¬ DbOk w.history)
      (audit action detail id) w := by
  refine safe_mono (safe_plain (A := fun r _ => r = .ok ()) hst hw (fun r => ?_) ?_)
    (fun _ _ h => h.1) ?_
  · cases r <;> rfl
  · rintro c s r s' h
    simp only [Stmt.perform, Option.some.injEq, Prod.mk.injEq] at h
    obtain ⟨rfl, rfl⟩ := h
    exact ⟨⟨rfl, rfl, rfl, rfl, rfl⟩, rfl⟩
  · rintro e w ⟨hP, h | h⟩
    · exact ⟨hP, h rfl⟩
    · cases h

/-- Storing the screening results. -/
theorem safe_createComplianceChecks (checks : List ComplianceCheck) :
    (sagaDiscipline env).Safe i (fun _ w => P w) (fun _ w => P w ∧ ¬ DbOk w.history)
      (call (.createComplianceChecks checks)) w := by
  refine safe_mono (safe_plain (A := fun r _ => r = .ok ()) hst hw (fun r => ?_) ?_)
    (fun _ _ h => h.1) ?_
  · cases r <;> rfl
  · rintro c s r s' h
    simp only [Stmt.perform, Option.some.injEq, Prod.mk.injEq] at h
    obtain ⟨rfl, rfl⟩ := h
    exact ⟨⟨rfl, rfl, rfl, rfl, rfl⟩, rfl⟩
  · rintro e w ⟨hP, h | h⟩
    · exact ⟨hP, h rfl⟩
    · cases h

/-- Reading the row. -/
theorem safe_findPayment :
    (sagaDiscipline env).Safe i (fun p w => P w ∧ w.state.payment = p)
      (fun _ w => P w ∧ ¬ DbOk w.history) (call .findPayment) w := by
  refine safe_mono (safe_plain (A := fun r s => r = .ok s.payment) hst hw (fun r => ?_) ?_)
    ?_ ?_
  · cases r <;> rfl
  · rintro c s r s' h
    simp only [Stmt.perform, Option.some.injEq, Prod.mk.injEq] at h
    obtain ⟨rfl, rfl⟩ := h
    exact ⟨.refl _, rfl⟩
  · rintro p w ⟨hP, h⟩
    exact ⟨hP, by simpa using h.symm⟩
  · rintro e w ⟨hP, h | h⟩
    · exact ⟨hP, h rfl⟩
    · cases h

/-- Reading the ledger. -/
theorem safe_findLedgerCredit :
    (sagaDiscipline env).Safe i (fun r w => P w ∧ w.state.ledgerCredits.head? = r)
      (fun _ w => P w ∧ ¬ DbOk w.history) (call .findLedgerCredit) w := by
  refine safe_mono (safe_plain (A := fun r s => r = .ok s.ledgerCredits.head?) hst hw
    (fun r => ?_) ?_) ?_ ?_
  · cases r <;> rfl
  · rintro c s r s' h
    simp only [Stmt.perform, Option.some.injEq, Prod.mk.injEq] at h
    obtain ⟨rfl, rfl⟩ := h
    exact ⟨.refl _, rfl⟩
  · rintro p w ⟨hP, h⟩
    exact ⟨hP, by simpa using h.symm⟩
  · rintro e w ⟨hP, h | h⟩
    · exact ⟨hP, h rfl⟩
    · cases h

/-- A figure read off a chain or a provider: it may be anything. -/
theorem safe_figure {o : Stmt} (hplain : ∀ r, plain ⟨i, o, r⟩ = true)
    (hcore : ∀ c s r s', o.perform c s = some (r, s') → s' = s) :
    (sagaDiscipline env).Safe i (fun _ w => P w) (fun _ w => P w) (call o) w := by
  refine safe_mono (safe_plain (A := fun _ _ => True) hst hw hplain ?_) (fun _ _ h => h.1)
    fun _ _ h => h.1
  intro c s r s' h
  exact hcore c s r s' h ▸ ⟨.refl _, trivial⟩

/-- A screening disturbs nothing. -/
theorem safe_screen (a b : Option Wallet) :
    (sagaDiscipline env).Safe i (fun _ w => P w) (fun _ w => P w) (call (.screen a b)) w :=
  safe_figure hst hw (fun r => by cases r <;> rfl) fun c s r s' h => by
    simp only [Stmt.perform, Option.some.injEq, Prod.mk.injEq] at h
    exact h.2.symm

/-- Reading the free balance disturbs nothing. -/
theorem safe_freeTreasuryBalance (network : Network) (symbol : AssetSymbol) :
    (sagaDiscipline env).Safe i (fun _ w => P w) (fun _ w => P w)
      (call (.freeTreasuryBalance network symbol)) w :=
  safe_figure hst hw (fun r => by cases r <;> rfl) fun c s r s' h => by
    simp only [Stmt.perform, Option.some.injEq, Prod.mk.injEq] at h
    exact h.2.symm

/-- Reading the parked balance disturbs nothing. -/
theorem safe_parkedBalance (network : Network) (symbol : AssetSymbol) :
    (sagaDiscipline env).Safe i (fun _ w => P w) (fun _ w => P w)
      (call (.parkedBalance network symbol)) w :=
  safe_figure hst hw (fun r => by cases r <;> rfl) fun c s r s' h => by
    simp only [Stmt.perform, Option.some.injEq, Prod.mk.injEq] at h
    exact h.2.symm

/-- Reading an allowance disturbs nothing. -/
theorem safe_allowance (network : Network) (token owner spender : String) :
    (sagaDiscipline env).Safe i (fun _ w => P w) (fun _ w => P w)
      (call (.allowance network token owner spender)) w :=
  safe_figure hst hw (fun r => by cases r <;> rfl) fun c s r s' h => by
    simp only [Stmt.perform, Option.some.injEq, Prod.mk.injEq] at h
    exact h.2.symm

/-- A recall disturbs nothing of the payment. -/
theorem safe_recallForPayment (network : Network) (asset : AssetSymbol) (amount : String) :
    (sagaDiscipline env).Safe i (fun _ w => P w) (fun _ w => P w)
      (call (.recallForPayment network asset amount)) w :=
  safe_figure hst hw (fun r => by cases r <;> rfl) fun c s r s' h => by
    simp only [Stmt.perform] at h
    split at h <;> simp only [Option.some.injEq, Prod.mk.injEq] at h <;> exact h.2.symm

/-- A receipt that was waited for is the transaction's. -/
theorem safe_confirm (network : Network) (hash : Hash) :
    (sagaDiscipline env).Safe i (fun r w => r.hash = hash ∧ P w ∧ Mined w.state hash true)
      (fun _ w => P w) (confirm network hash) w := by
  refine safe_bind (safe_mono (safe_plain (o := .waitForTransactionReceipt network hash)
    (A := fun r s => ∀ receipt, r = .ok receipt → Mined s hash receipt.success) hst hw
    (fun r => ?_) ?_) ?_ fun _ _ h => h.1)
  · cases r <;> rfl
  · intro c s r s' h
    simp only [Stmt.perform] at h
    split at h
    · rename_i receipt hr
      simp only [Option.some.injEq, Prod.mk.injEq] at h
      obtain ⟨rfl, rfl⟩ := h
      refine ⟨.refl _, fun receipt' he => ?_⟩
      cases he
      exact mined_of_receipt hr
    · cases h
  · rintro receipt w ⟨hP, hm⟩
    have hmined := hm receipt rfl
    by_cases hs : receipt.success = true
    · rw [hs] at hmined
      simpa [hs] using ⟨hP, hmined⟩
    · simpa [hs] using hP

/-- What `transactionOutcome` answers is true, and it never says `absent`. -/
theorem safe_transactionOutcome {X : Err → World env → Prop} (network : Network) (hash : Hash) :
    (sagaDiscipline env).Safe i
      (fun o w => P w ∧ (o = .confirmed → Mined w.state hash true) ∧
        (o = .reverted → Mined w.state hash false) ∧ o ≠ .absent)
      X (transactionOutcome network hash) w := by
  refine safe_handle (safe_bind (safe_mono (safe_plain (o := .getTransactionReceipt network hash)
    (A := fun r s => ∀ a, r = .ok a → ∃ receipt, a = some receipt ∧ Mined s hash receipt.success)
    hst hw (fun r => ?_) ?_) ?_ ?_))
  · cases r <;> rfl
  · intro c s r s' h
    simp only [Stmt.perform] at h
    split at h
    · rename_i receipt hr
      simp only [Option.some.injEq, Prod.mk.injEq] at h
      obtain ⟨rfl, rfl⟩ := h
      refine ⟨.refl _, fun a ha => ?_⟩
      cases ha
      exact ⟨receipt, rfl, mined_of_receipt hr⟩
    · simp only [Option.some.injEq, Prod.mk.injEq] at h
      obtain ⟨rfl, rfl⟩ := h
      exact ⟨.refl _, fun a ha => by cases ha⟩
  · rintro a w ⟨hP, ha⟩
    obtain ⟨receipt, rfl, hm⟩ := ha a rfl
    refine ⟨hP, ?_⟩
    cases hs : receipt.success <;> simp [outcomeOf, hs, hs ▸ hm]
  · rintro e w ⟨hP, -⟩
    exact ⟨hP, by simp⟩

end Reads

/-! ## Writes of the attempt that is inside -/

/-- Statement `o` of attempt `i` was performed in a world with `P` and answered `a`. -/
def Performed (i : ℕ) (o : Stmt) (P : World env → Prop) (a : o.Result) (w' : World env) : Prop :=
  Inv w' ∧ ∃ w c s', Inv w ∧ P w ∧ o.perform c w.state = some (.ok a, s') ∧
    w' = ⟨s', ⟨i, o, .ok a⟩ :: w.history⟩

/-- A write of the attempt that is inside: it hands back the world it leaves, or what the
attempt knew when it fails. -/
theorem safe_inside {o : Stmt} {P : World env → Prop}
    (hst : (sagaDiscipline env).Stable i P) (hw : P w)
    (hin : ∀ w, P w → inside i w.history = true)
    (hplain : ∀ e, plain ⟨i, o, .error e⟩ = true)
    (herr : ∀ c s e s', o.perform c s = some (.error e, s') → s' = s)
    (hok : ∀ w c a s', Inv w → P w → o.perform c w.state = some (.ok a, s') →
      Evolves w.state s' ∧ Inv (⟨s', ⟨i, o, .ok a⟩ :: w.history⟩ : World env)) :
    (sagaDiscipline env).Safe i (Performed i o P)
      (fun e w => P w ∧ (o.isDatabase = true →
        ¬ DbOk w.history ∨ ∃ c, o.perform c w.state = some (.error e, w.state)))
      (call o) w := by
  refine safe_call hst hw ?_
  intro w hinv hP c r w' he
  have hfail : ∀ e, (sagaDiscipline env).Keeps i w ⟨w.state, ⟨i, o, .error e⟩ :: w.history⟩ ∧
      P ⟨w.state, ⟨i, o, .error e⟩ :: w.history⟩ := by
    intro e
    obtain ⟨hreads, hesc⟩ := reads_of_plain (hplain e)
    exact keeps_reads hst hinv hP (.refl _) hreads (badRead_cons hesc).mp
  rcases exec_cases he with ⟨m, rfl, rfl⟩ | ⟨s', hp, rfl⟩
  · obtain ⟨hk, hP'⟩ := hfail (o.fault m)
    refine ⟨hk, fun a ha => (by cases ha), fun e _ => ⟨hP', fun ho => .inl ?_⟩⟩
    exact not_dbOk (dbFails_fault ho m)
  · cases r with
    | error e =>
      obtain rfl := herr c _ e s' hp
      obtain ⟨hk, hP'⟩ := hfail e
      refine ⟨hk, fun a ha => (by cases ha), fun e' he' => ⟨hP', fun _ => .inr ⟨c, ?_⟩⟩⟩
      cases he'
      exact hp
    | ok a =>
      obtain ⟨hev, hinv'⟩ := hok w c a s' hinv hP hp
      refine ⟨keeps_inside hinv (hin w hP) rfl hev hinv', ?_, fun e he' => by cases he'⟩
      intro a' ha'
      cases ha'
      exact ⟨hinv', w, c, s', hinv, hP, hp, rfl⟩

/-- Writes that leave the status, the lease, the chains and the ledger alone keep everything
but what they write. -/
theorem inv_of_write {w : World env} (hinv : Inv w) (hi : inside i w.history = true) {s' : State}
    {e : Entry sagaEffects} (hcl : claims e = false) (hgb : gaveBack e = false)
    (hmv : movesTo e = none) (her : escrowRead e = none) (hse : sends e = none)
    (hstatus : s'.payment.status = w.state.payment.status)
    (hlease : s'.payment.executionLeaseId = w.state.payment.executionLeaseId)
    (hsource : s'.payment.sourceNetwork = w.state.payment.sourceNetwork)
    (htxs : s'.txs = w.state.txs) (hesc : s'.escrow = w.state.escrow) (htruth : Truth s')
    (hres : reservedIn (e :: w.history) = true ↔ Reserved s') :
    Inv (⟨s', e :: w.history⟩ : World env) := by
  have hins : ∀ j, inside j (e :: w.history) = inside j w.history :=
    fun j => inside_cons fun _ => ⟨hcl, hgb⟩
  have hsent : ∀ k j, Sent s' k j ↔ Sent w.state k j := by simp [Sent, htxs]
  refine ⟨?_, ⟨fun n k hk => ?_, fun tx ht => ?_⟩, htruth, ⟨?_, hres, ?_, ?_⟩, fun hno => ?_⟩
  · obtain ⟨ha, hh, hl, hy⟩ := hinv.lease
    constructor <;> simp only [hins, hstatus, hlease]
    exacts [ha, hh, hl, hy]
  · have := hinv.chain.counted n k hk
    simpa [successes, htxs, hesc] using this
  · have := hinv.chain.home tx (htxs ▸ ht)
    simpa [hsource] using this
  · intro e' he' t hsend
    rw [htxs]
    rcases List.mem_cons.mp he' with rfl | hmem
    · rw [hse] at hsend
      cases hsend
    · exact hinv.trace.sent e' hmem t hsend
  · intro hstat j hj
    exact .inl (hinv.trace.stranded (hstatus ▸ hstat) j ((hsent _ _).mp hj))
  · intro hb
    have := hinv.trace.badRead ((badRead_cons her).mp hb)
    simpa only [hstatus] using this
  · have := hno i
    rw [hins, hi] at this
    cases this

section Writes

variable {P : World env → Prop} (hst : (sagaDiscipline env).Stable i P) (hw : P w)
  (hin : ∀ w, P w → inside i w.history = true)
include hst hw hin

/-- Writing a column of the payment's row that is neither the status nor the lease. -/
theorem safe_updatePayment {data : PaymentPatch} (hd : Plain data)
    (htruth : ∀ w, Inv w → P w → Truth { w.state with payment := w.state.payment.apply data })
    (hq : data.quoteJson = none ∧ data.selectedRouteId = none) :
    (sagaDiscipline env).Safe i
      (fun row w' => Inv w' ∧ ∃ w, P w ∧ row = w.state.payment.apply data ∧
        w' = ⟨{ w.state with payment := row }, ⟨i, .updatePayment data, .ok row⟩ :: w.history⟩)
      (fun _ w => P w ∧ ¬ DbOk w.history) (call (.updatePayment data)) w := by
  refine safe_mono (safe_inside (o := .updatePayment data) hst hw hin (fun e => rfl) ?_ ?_) ?_ ?_
  · intro c s e s' h
    simp [Stmt.perform] at h
  · intro w c a s' hinv hP h
    simp only [Stmt.perform, Option.some.injEq, Prod.mk.injEq, Except.ok.injEq] at h
    obtain ⟨rfl, rfl⟩ := h
    have hstatus : (w.state.payment.apply data).status = w.state.payment.status := by
      simp [Payment.apply, hd.status]
    refine ⟨⟨?_, rfl, fun _ => ?_, .refl _, fun _ => .inl rfl, fun _ => rfl⟩, ?_⟩
    · simp only [hstatus]
      exact .refl _
    · simp [quoteOf, Payment.apply, hq]
    · exact inv_of_write hinv (hin w hP) rfl rfl rfl rfl rfl hstatus
        (by simp [Payment.apply, hd.lease]) rfl rfl rfl (htruth w hinv hP) hinv.trace.reserved
  · rintro a w' ⟨hinv', w, c, s', -, hP, h, rfl⟩
    simp only [Stmt.perform, Option.some.injEq, Prod.mk.injEq, Except.ok.injEq] at h
    obtain ⟨rfl, rfl⟩ := h
    exact ⟨hinv', w, hP, rfl, rfl⟩
  · rintro e w' ⟨hP, hx⟩
    refine ⟨hP, ?_⟩
    rcases hx rfl with h | ⟨c, h⟩
    · exact h
    · simp [Stmt.perform] at h

/-- Writing the reservation's status. -/
theorem safe_updateReservation (status : ReservationStatus) :
    (sagaDiscipline env).Safe i
      (fun _ w' => Inv w' ∧ ∃ w r, P w ∧ w.state.reservation = some r ∧
        w' = ⟨{ w.state with reservation := some { r with status := status } },
          ⟨i, .updateReservation status, .ok ()⟩ :: w.history⟩)
      (fun _ w => P w ∧ (¬ DbOk w.history ∨ w.state.reservation = none))
      (call (.updateReservation status)) w := by
  refine safe_mono (safe_inside (o := .updateReservation status) hst hw hin (fun e => rfl) ?_ ?_)
    ?_ ?_
  · intro c s e s' h
    simp only [Stmt.perform] at h
    split at h <;> simp_all
  · intro w c a s' hinv hP h
    simp only [Stmt.perform] at h
    split at h
    · rename_i r hr
      simp only [Option.some.injEq, Prod.mk.injEq] at h
      obtain ⟨-, rfl⟩ := h
      refine ⟨⟨.refl _, rfl, fun _ => rfl, .refl _, fun _ => .inl rfl, fun _ => rfl⟩, ?_⟩
      refine inv_of_write hinv (hin w hP) rfl rfl rfl rfl rfl rfl rfl rfl rfl rfl ?_ ?_
      · exact hinv.truth.congr ⟨rfl, rfl, rfl, rfl, rfl⟩ (by simp [hr]) rfl rfl rfl
      · simp [reservedIn, reservesAs, Reserved]
    · simp at h
  · rintro a w' ⟨hinv', w, c, s', -, hP, h, rfl⟩
    simp only [Stmt.perform] at h
    split at h
    · rename_i r hr
      simp only [Option.some.injEq, Prod.mk.injEq] at h
      obtain ⟨-, rfl⟩ := h
      exact ⟨hinv', w, r, hP, hr, rfl⟩
    · simp at h
  · rintro e w' ⟨hP, hx⟩
    refine ⟨hP, ?_⟩
    rcases hx rfl with h | ⟨c, h⟩
    · exact .inl h
    · simp only [Stmt.perform] at h
      split at h
      · simp at h
      · rename_i hr
        exact .inr hr

/-- Crediting the ledger: at `PAYOUT_PENDING`, once. -/
theorem safe_createLedgerCredit {credit : LedgerCredit}
    (hpre : ∀ w, Inv w → P w → w.state.payment.status = .payoutPending ∧
      (∀ j, Sent w.state .payout j → Mined w.state j true) ∧
      (CrossChain w.state.payment → ∃ j, Sent w.state .payout j)) :
    (sagaDiscipline env).Safe i
      (fun _ w' => Inv w' ∧ ∃ w, P w ∧ w.state.ledgerCredits = [] ∧
        w' = ⟨{ w.state with ledgerCredits := [credit] },
          ⟨i, .createLedgerCredit credit, .ok ()⟩ :: w.history⟩)
      (fun _ w => P w ∧ (¬ DbOk w.history ∨ w.state.ledgerCredits ≠ []))
      (call (.createLedgerCredit credit)) w := by
  refine safe_mono (safe_inside (o := .createLedgerCredit credit) hst hw hin (fun e => rfl) ?_ ?_)
    ?_ ?_
  · intro c s e s' h
    simp only [Stmt.perform] at h
    split at h <;> simp_all
  · intro w c a s' hinv hP h
    simp only [Stmt.perform] at h
    split at h
    · rename_i hc
      simp only [Option.some.injEq, Prod.mk.injEq] at h
      obtain ⟨-, rfl⟩ := h
      obtain ⟨hs, hp, hb⟩ := hpre w hinv hP
      refine ⟨⟨.refl _, rfl, fun _ => rfl, .refl _, fun _ => .inl rfl, fun hne => ?_⟩, ?_⟩
      · exact absurd (List.isEmpty_iff.mp hc) hne
      · exact inv_of_write hinv (hin w hP) rfl rfl rfl rfl rfl rfl rfl rfl rfl rfl
          (hinv.truth.creditLedger hs hp hb) hinv.trace.reserved
    · simp at h
  · rintro a w' ⟨hinv', w, c, s', -, hP, h, rfl⟩
    simp only [Stmt.perform] at h
    split at h
    · rename_i hc
      simp only [Option.some.injEq, Prod.mk.injEq] at h
      obtain ⟨-, rfl⟩ := h
      exact ⟨hinv', w, hP, List.isEmpty_iff.mp hc, rfl⟩
    · simp at h
  · rintro e w' ⟨hP, hx⟩
    refine ⟨hP, ?_⟩
    rcases hx rfl with h | ⟨c, h⟩
    · exact .inl h
    · simp only [Stmt.perform] at h
      split at h
      · simp at h
      · rename_i hc
        exact .inr (by simpa using hc)

end Writes

/-- Attempt `i` sent a transaction, in a world with `P`. -/
structure SentBy (i : ℕ) (P : World env → Prop) (network : Network) (c : Call) (hash : ℕ)
    (w w' : World env) : Prop where
  inv : Inv w
  before : P w
  after : Inv w'
  fresh : hash = w.state.txs.length
  state : w'.state = send w.state network c
  history : w'.history = ⟨i, .writeContract network c, .ok hash⟩ :: w.history

/-- Sending a transaction the status admits. -/
theorem safe_writeContract {P : World env → Prop} {network : Network} {c : Call}
    (hst : (sagaDiscipline env).Stable i P) (hw : P w)
    (hin : ∀ w, P w → inside i w.history = true)
    (hpre : ∀ w, Inv w → P w → c.kind ∈ broadcastable w.state.payment.status ∧
      (c.kind ∈ contractCalls → network = w.state.payment.sourceNetwork) ∧
      (c.kind = .payout → (∀ j, ¬ Sent w.state .payout j) ∧ w.state.ledgerCredits = [] ∧
        w.state.payment.status ∉ compensationStates) ∧
      (c.kind = .settle → w.state.payment.status ∉ strandedStates)) :
    (sagaDiscipline env).Safe i (fun hash w' => ∃ w, SentBy i P network c hash w w')
      (fun _ w => P w) (call (.writeContract network c)) w := by
  refine safe_mono (safe_inside (o := .writeContract network c) hst hw hin (fun e => rfl) ?_ ?_)
    ?_ fun _ _ h => h.1
  · intro ch s e s' h
    simp [Stmt.perform] at h
  · intro w ch a s' hinv hP h
    simp only [Stmt.perform, Option.some.injEq, Prod.mk.injEq, Except.ok.injEq] at h
    obtain ⟨rfl, rfl⟩ := h
    obtain ⟨hk, hn, hp, hs⟩ := hpre w hinv hP
    refine ⟨evolves_send w.state network c, ?_⟩
    have hins : ∀ j, inside j (⟨i, .writeContract network c, .ok w.state.txs.length⟩ :: w.history) =
        inside j w.history := fun j => inside_cons fun _ => ⟨rfl, rfl⟩
    refine ⟨?_, hinv.chain.send hn, hinv.truth.send hk hp,
      ⟨?_, hinv.trace.reserved, ?_, ?_⟩, fun hno => ?_⟩
    · obtain ⟨ha, hh, hl, hy⟩ := hinv.lease
      constructor <;> simp only [hins]
      exacts [ha, hh, hl, hy]
    · intro e he t hsend
      rcases List.mem_cons.mp he with rfl | hmem
      · cases hsend
        exact ⟨⟨network, c, none⟩, by simp, rfl, rfl⟩
      · obtain ⟨tx, ht, hnet, hcall⟩ := hinv.trace.sent e hmem t hsend
        exact ⟨tx, by rw [List.getElem?_append_left (List.getElem?_eq_some_iff.mp ht).1, ht],
          hnet, hcall⟩
    · intro hstat j hj
      rcases sent_send.mp hj with hj | ⟨-, hj⟩
      · exact .inl (hinv.trace.stranded hstat j hj)
      · exact absurd hstat (hs hj)
    · exact fun hb => hinv.trace.badRead ((badRead_cons rfl).mp hb)
    · have := hno i
      rw [hins, hin w hP] at this
      cases this
  · rintro a w' ⟨hinv', w, ch, s', hinv, hP, h, rfl⟩
    simp only [Stmt.perform, Option.some.injEq, Prod.mk.injEq, Except.ok.injEq] at h
    obtain ⟨rfl, rfl⟩ := h
    exact ⟨w, hinv, hP, hinv', rfl, rfl, rfl⟩

/-- A status change of the attempt that is inside. -/
theorem inv_transition {w : World env} (events : List AuditRecord) (hinv : Inv w)
    (hi : inside i w.history = true)
    {next : PaymentStatus} {opts : TransitionOpts}
    (hcan : canTransition w.state.payment.status next = true) (hd : Plain opts.data)
    (hg : Grounds w.state next opts.data)
    (hstranded : next ∈ strandedStates → ∀ j, Sent w.state .settle j → BadRead w.history)
    (hbad : BadRead w.history → next = .confirmedOnchain ∨ next ∈ strandedStates)
    {row : Payment} (hrow : row = w.state.payment.apply (transitionData next opts)) :
    Inv (⟨{ w.state with payment := row, auditEvents := events },
      ⟨i, .transition w.state.payment.status next opts, .ok (some row)⟩ :: w.history⟩ :
        World env) := by
  subst hrow
  have hst := apply_status w.state.payment next opts hd.status
  have hl := apply_executionLeaseId w.state.payment next opts hd.lease
  have hleads := (leads_of_canTransition hcan).rank_le
  have hin : ∀ j row,
      inside j (⟨i, .transition w.state.payment.status next opts, .ok (some row)⟩ :: w.history) =
        inside j w.history := fun j _ => inside_cons fun _ => ⟨rfl, rfl⟩
  refine ⟨⟨?_, ?_, ?_, ?_⟩, ⟨fun n k hk => hinv.chain.counted n k hk, fun tx ht => ?_⟩,
    hinv.truth.transition hd hg, ⟨?_, hinv.trace.reserved, ?_, ?_⟩, fun hno => ?_⟩
  · simpa only [hin] using hinv.lease.alone
  · intro j hj
    rw [hin] at hj
    obtain rfl := hinv.lease.alone j i hj hi
    by_cases hr : next ∈ leaseReleaseStates
    · exact .inr (by simpa only [hst] using hr)
    · left
      simp only [hl, if_neg hr]
      rcases hinv.lease.held j hj with h | h
      · exact h
      · obtain ⟨-, hn⟩ := canTransition_release h hcan
        exact absurd (by simp [hn, leaseReleaseStates, terminalStates]) hr
  · simp only [hst, hl]
    intro hne hr
    exact hne (if_pos hr)
  · intro _
    simp only [hst]
    exact Nat.le_trans (hinv.lease.early (.inl ⟨i, hi⟩)) hleads
  · exact hinv.chain.home tx ht
  · intro e he t hsend
    rcases List.mem_cons.mp he with rfl | hmem
    · cases hsend
    · exact hinv.trace.sent e hmem t hsend
  · intro hn j hj
    exact .inl (hstranded (by simpa only [hst] using hn) j hj)
  · intro hb
    simp only [hst]
    exact hbad ((badRead_cons rfl).mp hb)
  · have := hno i
    rw [hin, hi] at this
    cases this

/-- A status change along the lifecycle is an evolution. -/
theorem evolves_transition {s : State} {next : PaymentStatus} {opts : TransitionOpts}
    (hcan : canTransition s.payment.status next = true) (hd : Plain opts.data)
    (hq : 2 ≤ s.payment.status.rank →
      opts.data.quoteJson = none ∧ opts.data.selectedRouteId = none)
    {events : List AuditRecord} :
    Evolves s { s with
      payment := s.payment.apply (transitionData next opts)
      auditEvents := events } where
  status := by
    simp only [apply_status _ _ _ hd.status]
    exact leads_of_canTransition hcan
  identity := rfl
  quote hr := apply_quoteOf _ _ _ (hq hr).1 (hq hr).2
  txs := .refl _
  escrow _ := .inl rfl
  credits _ := rfl

/-- Attempt `i` moved the payment from `status` to `next`, in a world with `P`. -/
structure Moved (i : ℕ) (P : World env → Prop) (status next : PaymentStatus)
    (opts : TransitionOpts) (row : Payment) (w w' : World env) : Prop where
  inv : Inv w
  before : P w
  found : w.state.payment.status = status
  written : row = w.state.payment.apply (transitionData next opts)
  after : Inv w'
  state : w'.state = { w.state with
    payment := row
    auditEvents := w.state.auditEvents ++
      [transitionRecord w.state.payment.id status next opts] }
  history : w'.history = ⟨i, .transition status next opts, .ok (some row)⟩ :: w.history

/-- `transitionStatus`, by the attempt that is inside: the status moves, or the attempt keeps
what it knew and either the database has failed or the status is another one. -/
theorem safe_transitionStatus {P : World env → Prop} {payment : Payment} {next : PaymentStatus}
    {opts : TransitionOpts} (hst : (sagaDiscipline env).Stable i P) (hw : P w)
    (hcan : canTransition payment.status next = true) (hd : Plain opts.data)
    (hq : opts.data.quoteJson = none ∧ opts.data.selectedRouteId = none)
    (hin : ∀ w, P w → inside i w.history = true)
    (hpre : ∀ w, Inv w → P w → w.state.payment.status = payment.status →
      Grounds w.state next opts.data ∧
        (next ∈ strandedStates → ∀ j, Sent w.state .settle j → BadRead w.history) ∧
        (BadRead w.history → next = .confirmedOnchain ∨ next ∈ strandedStates)) :
    (sagaDiscipline env).Safe i
      (fun row w' => ∃ w, Moved i P payment.status next opts row w w')
      (fun _ w => P w ∧ (w.state.payment.status = payment.status → ¬ DbOk w.history))
      (transitionStatus payment next opts) w := by
  unfold transitionStatus
  rw [if_pos hcan]
  refine safe_bind (safe_mono (safe_inside (o := .transition payment.status next opts) hst hw hin
    (fun e => rfl) ?_ ?_) ?_ ?_)
  · intro c s e s' h
    simp [Stmt.perform] at h
  · intro w c a s' hinv hP h
    simp only [Stmt.perform, State.transition, Option.some.injEq, Prod.mk.injEq,
      Except.ok.injEq] at h
    by_cases hs : w.state.payment.status = payment.status
    · obtain ⟨hg, hstr, hbad⟩ := hpre w hinv hP hs
      simp only [if_pos hs] at h
      obtain ⟨rfl, rfl⟩ := h
      refine ⟨evolves_transition (hs ▸ hcan) hd fun _ => hq, ?_⟩
      have := inv_transition (w.state.auditEvents ++
          [transitionRecord w.state.payment.id payment.status next opts])
        hinv (hin w hP) (hs ▸ hcan) hd hg hstr hbad rfl
      rwa [hs] at this
    · simp only [if_neg hs] at h
      obtain ⟨rfl, rfl⟩ := h
      exact ⟨.refl _, inv_reads hinv (.refl _) ⟨rfl, rfl, rfl, rfl, rfl⟩ fun h =>
        .inl ((badRead_cons rfl).mp h)⟩
  · rintro a w' ⟨hinv', w, c, s', hinv, hP, h, rfl⟩
    simp only [Stmt.perform, State.transition, Option.some.injEq, Prod.mk.injEq,
      Except.ok.injEq] at h
    by_cases hs : w.state.payment.status = payment.status
    · simp only [if_pos hs] at h
      obtain ⟨rfl, rfl⟩ := h
      exact ⟨w, hinv, hP, hs, rfl, hinv', rfl, rfl⟩
    · simp only [if_neg hs] at h
      obtain ⟨rfl, rfl⟩ := h
      refine ⟨hst w _ hP hinv' (rely_reads (.refl _) ⟨rfl, rfl, rfl, rfl, rfl⟩ i fun _ =>
        (badRead_cons rfl).mp), fun h => absurd h hs⟩
  · rintro e w' ⟨hP, hx⟩
    refine ⟨hP, fun _ => ?_⟩
    rcases hx rfl with h | ⟨c, h⟩
    · exact h
    · simp [Stmt.perform] at h

end SettlementOS.Analysis
