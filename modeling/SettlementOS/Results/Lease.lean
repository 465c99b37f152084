import SettlementOS.Results.Terminal

/-!
# One attempt at a time

At most one attempt is ever inside its leased section. A cancel is the only way another request
takes the lease from an attempt, and nothing is ever sent for the payment after it. And since
the contract's guards let `initiatePayment` and `settlePayment` through once, each succeeds at
most once however often it was sent.
-/

set_option autoImplicit false

namespace SettlementOS.Results

open SettlementOS.Computation Model Program Analysis Discipline

variable {env : Env} {new : NewPayment}

/-- How many calls of a kind have succeeded, on whatever network. -/
def succeeded (s : State) (k : CallKind) : ℕ :=
  s.txs.countP fun (tx : Tx) => tx.call.kind == k && tx.receipt.any (·.success)

/-- Every call to the settlement contract is counted on the source network. -/
theorem succeeded_eq {s : State} (h : ChainInv s) {k : CallKind} (hk : k ∈ contractCalls) :
    succeeded s k = successes s s.payment.sourceNetwork k := by
  refine List.countP_congr fun tx ht => ?_
  simp only [Bool.and_eq_true, beq_iff_eq]
  constructor
  · rintro ⟨rfl, hr⟩
    exact ⟨⟨h.home tx ht hk, rfl⟩, hr⟩
  · rintro ⟨⟨-, rfl⟩, hr⟩
    exact ⟨rfl, hr⟩

/-- Each kind of call to the settlement contract succeeds at most once. -/
theorem succeeded_le_one {s : State} (h : ChainInv s) {k : CallKind} (hk : k ∈ contractCalls) :
    succeeded s k ≤ 1 := by
  rw [succeeded_eq h hk, h.counted _ k hk]
  exact Bool.toNat_le _

/-- Nothing was ever sent for a payment that is cancelled. -/
theorem unsent_of_cancelled {w : World env} (hinv : Inv w)
    (hs : w.state.payment.status = .cancelled) : ∀ e ∈ w.history, sends e = none := by
  intro e he
  cases hsend : sends e with
  | none => rfl
  | some t =>
    obtain ⟨tx, ht, -, -⟩ := hinv.trace.sent e he t hsend
    have := hinv.truth.kinds _ _ ⟨tx, ht, rfl⟩
    simp [hs, broadcastable] at this

/-- A request that takes the lease from another has cancelled the payment. -/
theorem cancelled_of_taken {c c' : Config env} (h : Reachable env new c) {i j : ℕ}
    {ch : Choice} (hheld : c.world.state.payment.executionLeaseId = some i) (hj : j ≠ i)
    (hstep : c.step (.perform j ch) = some c')
    (htaken : c'.world.state.payment.executionLeaseId ≠ some i) :
    c'.world.state.payment.status = .cancelled := by
  have hrely := h.kept.rely (i := i) (saga_holds new) hstep fun ch' hm => by
    simp only [Service.Move.perform.injEq] at hm
    exact hj hm.1
  exact (hrely.lease hheld).resolve_left htaken

/-- **The lease excludes.** At most one attempt is inside its leased section. When a request takes
the lease from the attempt that holds it, the payment is cancelled, and no transaction is in
the history of any run from there on: that attempt broadcasts nothing any more. Of all the
`initiatePayment` and `settlePayment` ever sent, at most one each succeeds. -/
theorem lease_excludes {c : Config env} (h : Reachable env new c) :
    (∀ i j, inside i c.world.history = true → inside j c.world.history = true → i = j) ∧
    (∀ i j ch c', c.world.state.payment.executionLeaseId = some i → j ≠ i →
      c.step (.perform j ch) = some c' →
      c'.world.state.payment.executionLeaseId ≠ some i →
      c'.world.state.payment.status = .cancelled ∧
        ∀ c'', c'.Reaches c'' → ∀ e ∈ c''.world.history, sends e = none) ∧
    succeeded c.world.state .initiate ≤ 1 ∧ succeeded c.world.state .settle ≤ 1 := by
  refine ⟨h.inv.lease.alone, fun i j ch c' hheld hj hstep htaken => ?_,
    succeeded_le_one h.inv.chain (by decide), succeeded_le_one h.inv.chain (by decide)⟩
  have hcancelled := cancelled_of_taken h hheld hj hstep htaken
  have hreach : Reachable env new c' := Service.Config.Reaches.tail h hstep
  refine ⟨hcancelled, fun c'' hr => unsent_of_cancelled (Reachable.inv (hreach.trans hr)) ?_⟩
  rw [(hreach.evolves hr).status.terminal (by rw [hcancelled]; decide), hcancelled]

/-- The sample payment is being executed at `APPROVED`, and about to be cancelled. -/
def beforeCancelRun : List (Move sampleEnv) :=
  quotedRun ++ .start (.execute "ops" none) :: steps 1 8 ++ .start (.cancel "ops") :: steps 2 1

/-- The execution of the sample payment loses its lease to a cancel, and sends nothing. -/
theorem lease_excludes_cancelled : ∃ c c' : Config sampleEnv,
    Reachable sampleEnv samplePayment c ∧ c.step (.perform 2 {}) = some c' ∧
    c.world.state.payment.executionLeaseId = some 1 ∧
    c'.world.state.payment.executionLeaseId = none ∧
    inside 1 c'.world.history = true ∧
    (∀ c'', c'.Reaches c'' → ∀ e ∈ c''.world.history, sends e = none) := by
  obtain ⟨c, hc, hP⟩ := reached sampleEnv samplePayment beforeCancelRun
    (P := fun c => c.world.state.payment.executionLeaseId == some 1 &&
      (c.step (.perform 2 {})).any fun c' =>
        c'.world.state.payment.executionLeaseId == none && inside 1 c'.world.history)
    (by decide +kernel)
  simp only [Bool.and_eq_true, beq_iff_eq, Option.any_eq_true] at hP
  obtain ⟨hheld, c', hstep, hfree, hin⟩ := hP
  refine ⟨c, c', hc, hstep, hheld, hfree, hin, ?_⟩
  exact ((lease_excludes hc).2.1 1 2 {} c' hheld (by decide) hstep (by simp [hfree])).2

end SettlementOS.Results
