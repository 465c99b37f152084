import SettlementOS.Analysis.Requests

/-!
# Who was paid, and what a terminal status says

A configuration is `Reachable` when some run of requests on a newly created payment leads to
it: any number of requests, interleaved statement by statement, any of which may fail, with
transactions mined in any order. In none of them are both the recipient paid and the sender
made whole, and in all of them a terminal status says what has happened to the money.
-/

set_option autoImplicit false

namespace SettlementOS.Results

open SettlementOS.Computation Model Program Analysis Discipline

variable {env : Env} {new : NewPayment}

/-- The configurations of the service of one payment. -/
abbrev Config (env : Env) := (sagaService env).Config

/-- The moves of a run. -/
abbrev Move (env : Env) := (sagaService env).Move

/-- The configuration in which a payment has just been created. -/
def created (env : Env) (new : NewPayment) : Config env := Service.Config.start (State.created new)

/-- Some run of requests on the payment leads to the configuration. -/
def Reachable (env : Env) (new : NewPayment) (c : Config env) : Prop := (created env new).Reaches c

/-- Along every run the invariant holds, and what is left of every request is safe. -/
theorem Reachable.kept {c : Config env} (h : Reachable env new c) :
    (sagaDiscipline env).Kept (fun _ i _ w => inside i w.history = false)
      (fun _ i _ w => inside i w.history = false) c := sound (saga_holds new) h

/-- The saga's invariant holds in every configuration that is reached. -/
theorem Reachable.inv {c : Config env} (h : Reachable env new c) : Inv c.world := h.kept.inv

/-- What no step undoes, no run undoes. -/
theorem Reachable.evolves {c c' : Config env} (h : Reachable env new c) (h' : c.Reaches c') :
    Evolves c.world.state c'.world.state := by
  refine Service.Config.Reaches.induct
    (P := fun c' => Evolves c.world.state c'.world.state) (Evolves.refl _)
    (fun c₁ m c₂ hr hev hm => Evolves.trans hev ?_) h'
  -- a request that never comes may rely on every step
  have hk := Reachable.kept (h.trans hr)
  rcases Service.Config.step_eq_some hm with ⟨r, -, rfl⟩ | ⟨i, ch, r, o, k, a, w, rfl, -, -, -⟩ |
    ⟨x, s, -, hs, rfl⟩
  · exact .refl _
  · exact (hk.rely (i := i + 1) (saga_holds new) hm (by simp)).evolves
  · exact evolves_mine hs

/-! ## A sample payment -/

/-- A network of the sample: its settlement contract, and one token for every asset. -/
def sampleNetwork : DeployedNetwork where
  paymentSettlement := "0x5e771e"
  tokens _ := some ⟨"0x70ce", 6⟩

/-- Two networks, a sender on the one and a recipient on the other. -/
def sampleEnv : Env where
  deployments :=
    { networks := fun n => if n = "alpha" ∨ n = "beta" then some sampleNetwork else none
      accounts := some ⟨"0x09", "0x7e", fun _ => some "0x5e"⟩ }
  networks _ := some ⟨false⟩
  keccak256 s := s
  sender :=
    { id := "s", externalId := "acme", name := "Acme", wallets := [⟨"alpha", "0x5e", true, 0⟩] }
  recipient :=
    { id := "r", externalId := "bolt", name := "Bolt", wallets := [⟨"beta", "0x4e", true, 0⟩] }

/-- A payment from the one network to the other. -/
def samplePayment : NewPayment := ⟨"p", "r", "100.00", "USD", "USD", "alpha", "beta"⟩

/-- Statement after statement of request `i`, none of which fails. -/
def steps (i n : ℕ) : List (Move sampleEnv) :=
  List.replicate n (.perform i { treasury := ⟨10 ^ 12, 0, 10 ^ 12⟩ })

/-- The next statement of request `i` fails. -/
def failure (i : ℕ) : Move sampleEnv := .perform i { fails := some "connection lost" }

/-- A transaction is mined, and succeeds if its guard holds. -/
def mine (hash : ℕ) : Move sampleEnv := .outside (.mine hash true 1 1)

/-- The sample payment is quoted. -/
def quotedRun : List (Move sampleEnv) := .start (.quote "ops") :: steps 0 5

/-- The sample payment is quoted and executed, up to the end. -/
def completedRun : List (Move sampleEnv) :=
  quotedRun ++ .start (.execute "ops" none) :: steps 1 14 ++ mine 0 :: steps 1 3 ++
    mine 1 :: steps 1 4 ++ mine 2 :: steps 1 6 ++ mine 3 :: steps 1 7

/-- A run that goes through leads to a reachable configuration. -/
theorem reached (env : Env) (new : NewPayment) (ms : List (Move env)) {P : Config env → Bool}
    (h : ((created env new).run ms).any P = true) :
    ∃ c, Reachable env new c ∧ P c = true := by
  obtain ⟨c, hc, hP⟩ := (Option.any_eq_true _ _).mp h
  exact ⟨c, ⟨ms, hc⟩, hP⟩

/-! ## Paid and made whole -/

/-- The recipient was paid: its ledger is credited, or the payout on the destination network was
mined successfully. -/
def Paid (s : State) : Prop :=
  s.ledgerCredits ≠ [] ∨ ∃ h, Sent s .payout h ∧ Mined s h true

/-- The sender was made whole: the escrow was refunded, or a compensation was mined
successfully. -/
def MadeWhole (s : State) : Prop :=
  (∃ n, s.escrow n = .refunded) ∨ ∃ h, Sent s .compensation h ∧ Mined s h true

/-- An escrow that was ever touched is the one on the source network. -/
theorem escrow_home {s : State} (h : ChainInv s) {n : Network} (hn : s.escrow n ≠ .none) :
    n = s.payment.sourceNetwork := by
  have hpos : 0 < successes s n .initiate := by
    rw [h.counted n .initiate (by decide)]
    refine Nat.lt_of_lt_of_eq Nat.zero_lt_one (Bool.toNat_eq_one.mpr ?_).symm
    simpa [happened] using hn
  obtain ⟨tx, hmem, htx⟩ := List.countP_pos_iff.mp hpos
  simp only [Bool.and_eq_true, beq_iff_eq] at htx
  rw [← htx.1.1]
  exact h.home tx hmem (by rw [htx.1.2]; decide)

/-- By the status, a payment whose recipient was paid was settled on chain, and no compensation of
it can have landed. -/
theorem not_madeWhole_of_paid {w : World env} (hinv : Inv w) (h : Paid w.state) :
    ¬ MadeWhole w.state := by
  obtain ⟨hsettled, hcomp⟩ : w.state.escrow w.state.payment.sourceNetwork = .settled ∧
      (CallKind.compensation ∈ broadcastable w.state.payment.status →
        ∃ h, Sent w.state .payout h ∧ Mined w.state h true ∧
          w.state.payment.status ∈ compensationStates) := by
    rcases h with hc | ⟨h, hs, hm⟩
    · refine ⟨hinv.truth.released ?_, fun hk => ?_⟩ <;> rcases hinv.truth.credit hc with hst | hst
      · rw [hst]
        decide
      · rw [hst]
        decide
      · rw [hst] at hk
        exact absurd hk (by decide)
      · rw [hst] at hk
        exact absurd hk (by decide)
    · have hk := hinv.truth.kinds _ _ hs
      refine ⟨hinv.truth.released ?_, fun hk' => ⟨h, hs, hm, ?_⟩⟩
      · revert hk
        generalize w.state.payment.status = s
        cases s <;> decide
      · revert hk'
        generalize w.state.payment.status = s
        cases s <;> decide
  rintro (⟨n, hn⟩ | ⟨h', hs', -⟩)
  · have := escrow_home hinv.chain (n := n) (by rw [hn]; decide)
    rw [← this, hn] at hsettled
    cases hsettled
  · obtain ⟨h, hs, hm, hst⟩ := hcomp (hinv.truth.kinds _ _ hs')
    cases hm.unique (hinv.truth.noPayout hst h hs)

/-- **Nobody is paid twice.** In no reachable configuration are both the recipient paid and the
sender made whole. -/
theorem not_paid_and_madeWhole {c : Config env} (h : Reachable env new c) :
    ¬ (Paid c.world.state ∧ MadeWhole c.world.state) :=
  fun ⟨hp, hm⟩ => not_madeWhole_of_paid h.inv hp hm

/-- The sample payment, once its recipient was paid. -/
theorem not_paid_and_madeWhole_completed : ∃ c : Config sampleEnv,
    Reachable sampleEnv samplePayment c ∧ c.world.state.ledgerCredits ≠ [] ∧
    ¬ (Paid c.world.state ∧ MadeWhole c.world.state) := by
  obtain ⟨c, hc, hs⟩ := reached sampleEnv samplePayment completedRun
    (P := fun c => !c.world.state.ledgerCredits.isEmpty) (by decide +kernel)
  exact ⟨c, hc, by simpa using hs, not_paid_and_madeWhole hc⟩

/-! ## Terminal statuses -/

/-- No escrow of the payment was ever initiated, nor was its initiation sent. -/
def Untouched (s : State) : Prop := (∀ n, s.escrow n = .none) ∧ ∀ h, ¬ Sent s .initiate h

/-- What the terminal statuses say. -/
structure TellsTruth (s : State) : Prop where
  settled : s.payment.status = .settled →
    s.escrow s.payment.sourceNetwork = .settled ∧ s.ledgerCredits.length = 1 ∧
    (CrossChain s.payment →
      ∃ h, s.payment.destinationTxHash = some h ∧ Sent s .payout h ∧ Mined s h true) ∧
    ∀ h, ¬ Sent s .compensation h
  compensated : s.payment.status = .compensated →
    s.escrow s.payment.sourceNetwork = .settled ∧
    (∃ h, s.payment.compensationTxHash = some h ∧ Sent s .compensation h ∧ Mined s h true) ∧
    s.ledgerCredits = []
  refunded : s.payment.status = .refunded →
    s.escrow s.payment.sourceNetwork = .refunded ∧ s.ledgerCredits = []
  untouched : s.payment.status = .cancelled ∨ s.payment.status = .rejected → Untouched s

/-- Where the ledger is not credited. -/
theorem no_credit {s : State} (h : Truth s) (hp : s.payment.status ≠ .payoutPending)
    (hs : s.payment.status ≠ .settled) : s.ledgerCredits = [] := by
  by_contra hc
  exact (h.credit hc).elim hp hs

/-- Where no initiation may have been sent, the escrow is untouched. -/
theorem untouched_of_truth {w : World env} (hinv : Inv w)
    (hk : CallKind.initiate ∉ broadcastable w.state.payment.status) : Untouched w.state := by
  have hunsent : ∀ h, ¬ Sent w.state .initiate h := fun h hs => hk (hinv.truth.kinds _ _ hs)
  refine ⟨fun n => ?_, hunsent⟩
  by_contra hn
  obtain ⟨h, hs⟩ := hinv.chain.sent (n := n) (k := .initiate) (by decide)
    (by simpa [happened] using hn)
  exact hunsent h hs

/-- The invariant tells the truth about a terminal payment. -/
theorem tellsTruth_of_inv {w : World env} (hinv : Inv w) : TellsTruth w.state where
  settled hs := by
    obtain ⟨hc, hx⟩ := hinv.truth.settledEnd hs
    refine ⟨hinv.truth.released (by rw [hs]; decide), ?_, fun hcross => ?_, fun h hsent => ?_⟩
    · exact Nat.le_antisymm hinv.truth.oneCredit (List.length_pos_iff.mpr hc)
    · obtain ⟨h, hh⟩ := hx hcross
      have hsent := hinv.truth.payoutHash h hh
      exact ⟨h, hh, hsent, hinv.truth.paid hc h hsent⟩
    · have := hinv.truth.kinds _ _ hsent
      rw [hs] at this
      exact absurd this (by decide)
  compensated hs := by
    obtain ⟨h, hh, hm⟩ := hinv.truth.compensatedEnd hs
    exact ⟨hinv.truth.released (by rw [hs]; decide),
      ⟨h, hh, hinv.truth.compensationHash h hh, hm⟩,
      no_credit hinv.truth (by rw [hs]; decide) (by rw [hs]; decide)⟩
  refunded hs := ⟨hinv.truth.refundedEnd hs,
    no_credit hinv.truth (by rw [hs]; decide) (by rw [hs]; decide)⟩
  untouched hs := untouched_of_truth hinv (by rcases hs with hs | hs <;> rw [hs] <;> decide)

/-- **Terminal statuses tell the truth**, and an escrow that was untouched when the payment was
cancelled or rejected stays untouched ever after. -/
theorem terminal_truth {c : Config env} (h : Reachable env new c) :
    TellsTruth c.world.state ∧
      (c.world.state.payment.status = .cancelled ∨ c.world.state.payment.status = .rejected →
        ∀ c', c.Reaches c' → Untouched c'.world.state) := by
  refine ⟨tellsTruth_of_inv h.inv, fun hs c' hr => ?_⟩
  have hend : c'.world.state.payment.status = c.world.state.payment.status :=
    (h.evolves hr).status.terminal (by rcases hs with hs | hs <;> rw [hs] <;> decide)
  exact (tellsTruth_of_inv (Reachable.inv (h.trans hr))).untouched (hend ▸ hs)

/-- The sample payment, completed. -/
theorem terminal_truth_completed : ∃ c : Config sampleEnv,
    Reachable sampleEnv samplePayment c ∧ c.world.state.payment.status = .settled ∧
    TellsTruth c.world.state ∧
      (c.world.state.payment.status = .cancelled ∨ c.world.state.payment.status = .rejected →
        ∀ c', c.Reaches c' → Untouched c'.world.state) := by
  obtain ⟨c, hc, hs⟩ := reached sampleEnv samplePayment completedRun
    (P := fun c => c.world.state.payment.status == .settled) (by decide +kernel)
  exact ⟨c, hc, by simpa using hs, terminal_truth hc⟩

end SettlementOS.Results
