import SettlementOS.Analysis.Resend
import SettlementOS.Results.Terminal

/-!
# How often the sender is made whole

A compensation goes out on the row its attempt was given last, and a repair is given its row
before it claims the lease. As long as every compensation goes out on a row that carries the
newest one, each is sent only when all the earlier ones are known to have reverted, and at
most one is ever mined successfully. A repair that was given its row before another one sent
its transfer breaks both.
-/

set_option autoImplicit false

namespace SettlementOS.Results

open SettlementOS.Computation Model Program Analysis Discipline

variable {env : Env} {new : NewPayment}

/-- No compensation was sent while an earlier one was not known to have reverted. -/
def OneAtATime : History → Prop
  | [] => True
  | e :: h => OneAtATime h ∧
      (compensationSent e ≠ none → ∀ hash ∈ compensations h, KnownReverted hash h)

/-- Every compensation was sent on a row that carried the newest one. -/
def FreshRows : History → Prop
  | [] => True
  | e :: h => FreshRows h ∧
      (compensationSent e ≠ none → decidedOn e.tid h = (compensations h).head?)

/-- The sender is compensated at most once, and one transfer at a time. -/
structure CompensatedOnce (c : Config env) : Prop where
  once : ∀ h h', Sent c.world.state .compensation h → Mined c.world.state h true →
    Sent c.world.state .compensation h' → Mined c.world.state h' true → h = h'
  oneAtATime : OneAtATime c.world.history

/-- One at a time, all but the newest are known to have reverted. -/
theorem OneAtATime.tail_reverted {h : History} (ho : OneAtATime h) :
    ∀ hash ∈ (compensations h).tail, KnownReverted hash h := by
  induction h with
  | nil => simp [compensations]
  | cons e h ih =>
    intro hash hmem
    cases he : compensationSent e with
    | none =>
      rw [compensations_cons_none he] at hmem
      exact (ih ho.1 hash hmem).cons
    | some new =>
      rw [compensations_cons_some he, List.tail_cons] at hmem
      exact (ho.2 (by simp [he]) hash hmem).cons

/-- Who decides on fresh rows sends one at a time. -/
theorem oneAtATime_of_freshRows {h : History} (hd : Deciding h) (hf : FreshRows h) :
    OneAtATime h := by
  induction h with
  | nil => trivial
  | cons e h ih =>
    have ih := ih hd.1 hf.1
    refine ⟨ih, fun hsent hash hmem => ?_⟩
    have hclear := hd.2 hsent
    have hnewest := hf.2 hsent
    obtain ⟨newest, older, hlist⟩ := List.exists_cons_of_ne_nil (List.ne_nil_of_mem hmem)
    rw [hlist, List.head?_cons] at hnewest
    rw [hlist, List.mem_cons] at hmem
    rcases hmem with rfl | hold
    · exact (hclear _ hnewest).known
    · exact ih.tail_reverted hash (by rwa [hlist])

/-! ## The history and the chain -/

/-- What the history says of compensations is so: the receipts read were there, and the transfers
sent are listed. -/
structure Recorded (w : World env) : Prop where
  reverted : ∀ hash, KnownReverted hash w.history → Mined w.state hash false
  listed : ∀ hash, Sent w.state .compensation hash → hash ∈ compensations w.history

/-- A receipt that is read is there. -/
theorem mined_of_read {i : ℕ} {o : Stmt} {ch : Choice} {r : Except Err o.Result} {s s' : State}
    {hash : Hash} {b : Bool} (hr : receiptRead ⟨i, o, r⟩ = some (hash, b))
    (he : o.exec ch s = some (r, s')) : Mined s' hash b := by
  unfold receiptRead at hr
  split at hr
  · rename_i tid network hash' receipt heq
    cases heq
    simp only [Option.some.injEq, Prod.mk.injEq] at hr
    obtain ⟨rfl, rfl⟩ := hr
    simp only [Stmt.exec, Stmt.perform] at he
    split at he
    · cases he
    · split at he
      · rename_i receipt' hreceipt
        cases he
        exact mined_of_receipt hreceipt
      · cases he
  · rename_i tid network hash' receipt heq
    cases heq
    simp only [Option.some.injEq, Prod.mk.injEq] at hr
    obtain ⟨rfl, rfl⟩ := hr
    simp only [Stmt.exec, Stmt.perform] at he
    split at he
    · cases he
    · split at he
      · rename_i receipt' hreceipt
        cases he
        exact mined_of_receipt hreceipt
      · cases he
  · cases hr

/-- Only `writeContract` sends. -/
theorem txs_of_exec {o : Stmt} {ch : Choice} {r : Except Err o.Result} {s s' : State}
    (ho : ∀ network c, o ≠ .writeContract network c) (he : o.exec ch s = some (r, s')) :
    s'.txs = s.txs := by
  unfold Stmt.exec at he
  split at he
  · cases he
    rfl
  · cases o with
    | writeContract network c => exact absurd rfl (ho network c)
    | transition status next opts =>
      simp only [Stmt.perform, State.transition] at he
      split at he <;> cases he <;> rfl
    | reserve leaseId asset network amount =>
      simp only [Stmt.perform, State.reserve] at he
      split at he <;> cases he <;> rfl
    | _ =>
      simp only [Stmt.perform] at he
      first
        | (cases he; rfl)
        | (split at he <;> first | (cases he; rfl) | cases he)

/-- A statement sends at most the compensation its entry lists. -/
theorem listed_of_exec {i : ℕ} {o : Stmt} {ch : Choice} {r : Except Err o.Result} {s s' : State}
    {hash : Hash} (he : o.exec ch s = some (r, s')) (hs : Sent s' .compensation hash) :
    Sent s .compensation hash ∨ compensationSent ⟨i, o, r⟩ = some hash := by
  by_cases ho : ∃ network c, o = .writeContract network c
  · obtain ⟨network, c, rfl⟩ := ho
    unfold Stmt.exec at he
    split at he
    · cases he
      exact .inl hs
    · simp only [Stmt.perform, Option.some.injEq, Prod.mk.injEq] at he
      obtain ⟨rfl, rfl⟩ := he
      rcases sent_send.mp hs with hs | ⟨rfl, hk⟩
      · exact .inl hs
      · exact .inr (by simp [compensationSent, sends, hk])
  · left
    obtain ⟨tx, ht, hk⟩ := hs
    exact ⟨tx, txs_of_exec (fun n c h => ho ⟨n, c, h⟩) he ▸ ht, hk⟩

/-- Along every run the history is so. -/
theorem Reachable.recorded {c : Config env} (h : Reachable env new c) : Recorded c.world := by
  refine Service.Config.Reaches.induct (P := fun c => Recorded c.world) ⟨?_, ?_⟩ ?_ h
  · rintro hash ⟨e, he, -⟩
    cases he
  · rintro hash ⟨tx, ht, -⟩
    cases ht
  intro c₁ m c₂ hr hrec hm
  have hev : Evolves c₁.world.state c₂.world.state :=
    Reachable.evolves hr ((Service.Config.Reaches.refl c₁).tail hm)
  rcases Service.Config.step_eq_some hm with ⟨r, -, rfl⟩ | ⟨i, ch, r, o, k, a, w, -, -, he, rfl⟩ |
    ⟨x, s, -, hs, rfl⟩
  · exact hrec
  · obtain ⟨s, hex, rfl⟩ := Service.World.exec_eq_some.mp he
    refine ⟨fun hash hk => ?_, fun hash hs => ?_⟩
    · obtain ⟨e, hmem, hread⟩ := hk
      rcases List.mem_cons.mp hmem with rfl | hmem
      · exact mined_of_read hread hex
      · exact hev.mined (hrec.reverted hash ⟨e, hmem, hread⟩)
    · rcases listed_of_exec (i := i) hex hs with hs | hsent
      · have := hrec.listed hash hs
        cases hsent : compensationSent ⟨i, o, a⟩ with
        | none => rwa [compensations_cons_none hsent]
        | some _ =>
          rw [compensations_cons_some hsent]
          exact List.mem_cons_of_mem _ this
      · rw [compensations_cons_some hsent]
        exact List.mem_cons_self
  · exact ⟨fun hash hk => hev.mined (hrec.reverted hash hk),
      fun hash hs' => hrec.listed hash ((sent_mine hs).mp hs')⟩

/-- **The sender is compensated once.** In a run in which every compensation goes out on a row that
carries the newest one, at most one compensation is ever mined successfully, and none is sent
while an earlier one is not known to have reverted. -/
theorem compensated_once {c : Config env} (h : Reachable env new c)
    (hf : FreshRows c.world.history) : CompensatedOnce c := by
  have hone : OneAtATime c.world.history :=
    oneAtATime_of_freshRows (sound (resend_holds new) h).inv hf
  have hrec := h.recorded
  refine ⟨fun j j' hs hm hs' hm' => ?_, hone⟩
  -- all but the newest have reverted, so both are the newest
  have hnewest : ∀ j, Sent c.world.state .compensation j → Mined c.world.state j true →
      (compensations c.world.history).head? = some j := by
    intro j hs hm
    have hmem := hrec.listed j hs
    obtain ⟨newest, older, hlist⟩ := List.exists_cons_of_ne_nil (List.ne_nil_of_mem hmem)
    rw [hlist, List.mem_cons] at hmem
    rcases hmem with rfl | hold
    · rw [hlist, List.head?_cons]
    · have hrev := hrec.reverted j (hone.tail_reverted j (by rwa [hlist]))
      cases hm.unique hrev
  have := (hnewest j hs hm).symm.trans (hnewest j' hs' hm')
  simpa using this

instance : (h : History) → Decidable (FreshRows h)
  | [] => isTrue trivial
  | e :: h =>
    have : Decidable (FreshRows h) := instDecidableFreshRows h
    inferInstanceAs (Decidable (_ ∧ (compensationSent e ≠ none → _ = _)))

/-- A transaction is mined, and reverts. -/
def revert (hash : ℕ) : Move sampleEnv := .outside (.mine hash false 1 1)

/-- The payout of the sample payment reverts. -/
def unpaidRun : List (Move sampleEnv) :=
  quotedRun ++ .start (.execute "ops" none) :: steps 1 14 ++ mine 0 :: steps 1 3 ++
    mine 1 :: steps 1 4 ++ mine 2 :: steps 1 5 ++ revert 3 :: steps 1 7

/-- The sample payment, compensated by its execution. -/
theorem compensated_once_sample : ∃ c : Config sampleEnv,
    Reachable sampleEnv samplePayment c ∧ c.world.state.payment.status = .compensated ∧
    CompensatedOnce c := by
  obtain ⟨c, hc, hP⟩ := reached sampleEnv samplePayment
    (unpaidRun ++ steps 1 3 ++ mine 4 :: steps 1 4)
    (P := fun c => decide (FreshRows c.world.history) &&
      c.world.state.payment.status == .compensated)
    (by decide +kernel)
  simp only [Bool.and_eq_true, decide_eq_true_eq, beq_iff_eq] at hP
  exact ⟨c, hc, hP.2, compensated_once hc hP.1⟩

/-- The execution cannot send the compensation. One repair is given the row, another one sends its
transfer and loses the receipt, and then the first one sends its own. -/
def compensatedTwiceRun : List (Move sampleEnv) :=
  unpaidRun ++ failure 1 :: steps 1 2 ++ .start .repair :: steps 2 1 ++
  .start .repair :: steps 3 7 ++ failure 3 :: steps 3 4 ++ steps 2 4 ++ [mine 4, mine 5]

/-- The sample payment, compensated twice. -/
theorem compensated_twice : ∃ c : Config sampleEnv, Reachable sampleEnv samplePayment c ∧
    Sent c.world.state .compensation 4 ∧ Mined c.world.state 4 true ∧
    Sent c.world.state .compensation 5 ∧ Mined c.world.state 5 true ∧ ¬ CompensatedOnce c := by
  obtain ⟨c, hc, hP⟩ := reached sampleEnv samplePayment
    compensatedTwiceRun
    (P := fun c => [4, 5].all fun j => c.world.state.txs[j]?.any fun tx =>
      tx.call.kind == .compensation && tx.receipt.any (·.success))
    (by decide +kernel)
  have htwice : ∀ j ∈ [4, 5], Sent c.world.state .compensation j ∧ Mined c.world.state j true := by
    intro j hj
    have := List.all_eq_true.mp hP j hj
    obtain ⟨tx, ht, htx⟩ := (Option.any_eq_true _ _).mp this
    simp only [Bool.and_eq_true, beq_iff_eq] at htx
    obtain ⟨r, hr, hs⟩ := (Option.any_eq_true _ _).mp htx.2
    exact ⟨⟨tx, ht, htx.1⟩, ⟨tx, r, ht, hr, hs⟩⟩
  obtain ⟨hs, hm⟩ := htwice 4 (by decide)
  obtain ⟨hs', hm'⟩ := htwice 5 (by decide)
  refine ⟨c, hc, hs, hm, hs', hm', fun hone => ?_⟩
  have := hone.once 4 5 hs hm hs' hm'
  cases this

end SettlementOS.Results
