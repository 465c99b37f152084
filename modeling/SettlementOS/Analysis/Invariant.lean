import SettlementOS.Analysis.Truth
import SettlementOS.Computation.Discipline

/-!
# The invariant of one payment and what attempts rely on

`Inv` holds in every reachable world: the lease admits one attempt at a time, the contract's
bookkeeping and `Truth` hold, the history agrees with the state, and a payment nobody is
working on has come to rest (`RestAt`).

`Rely i` is what attempt `i` may assume of the others' steps. While it is inside its leased
section nobody else touches the payment's rows or sends anything (`Alone`), with one
exception: at `APPROVED` the payment may be cancelled.
-/

set_option autoImplicit false

namespace SettlementOS.Analysis

open SettlementOS.Computation Model Program

variable {env : Env}

/-! ## The invariant -/

/-- At most one attempt is inside its leased section, and it holds the lease until a status
change has released it. -/
structure LeaseInv (s : State) (h : History) : Prop where
  alone : ∀ i j, inside i h = true → inside j h = true → i = j
  held : ∀ i, inside i h = true →
    s.payment.executionLeaseId = some i ∨ s.payment.status ∈ leaseReleaseStates
  live : s.payment.executionLeaseId ≠ none → s.payment.status ∉ leaseReleaseStates
  early : (∃ i, inside i h = true) ∨ s.payment.executionLeaseId ≠ none →
    4 ≤ s.payment.status.rank

/-- The reservation row is there and holds liquidity back. -/
def Reserved (s : State) : Prop := s.reservation.map (·.status) = some .reserved

/-- The statuses a payment strands at when a released escrow was taken for one that is held. -/
def strandedStates : List PaymentStatus := [.failed, .refunded]

/-- What the history says of the state. -/
structure TraceInv (s : State) (h : History) : Prop where
  sent : ∀ e ∈ h, ∀ t, sends e = some t →
    ∃ tx : Tx, s.txs[t.2.2]? = some tx ∧ tx.network = t.1 ∧ tx.call = t.2.1
  reserved : reservedIn h = true ↔ Reserved s
  stranded : s.payment.status ∈ strandedStates → ∀ i, Sent s .settle i → BadRead h
  badRead : BadRead h → s.payment.status = .confirmedOnchain ∨
    s.payment.status ∈ strandedStates

/-- The token the sender pays in, on the network the sender pays on. -/
def sourceToken (env : Env) (p : Payment) : Option Token :=
  (currencyToAsset p.sourceCurrency).bind fun symbol =>
    (env.deployments.networks p.sourceNetwork).bind fun net => net.tokens symbol

/-- The payment is where an attempt that no database failure has hit may leave it. -/
structure RestAt (env : Env) (s : State) (h : History) : Prop where
  moving : s.payment.status ∉
    [PaymentStatus.submittedOnchain, .confirmedOnchain, .fxOrSwapCompleted]
  stuck : s.payment.status = .liquidityReserved → sourceToken env s.payment = none
  spared : CancelSpares h → Reserved s →
    s.payment.status = .payoutPending ∨ s.payment.status = .liquidityReserved
  consumed : s.payment.status = .settled → s.reservation.map (·.status) = some .consumed

/-- The invariant. -/
structure Inv (w : World env) : Prop where
  lease : LeaseInv w.state w.history
  chain : ChainInv w.state
  truth : Truth w.state
  trace : TraceInv w.state w.history
  rest : (∀ i, inside i w.history = false) → DbOk w.history → RestAt env w.state w.history

/-! ## The rely -/

/-- What the others may do to an attempt that is inside: cancel the payment at `APPROVED`, and
nothing else. -/
structure Alone (s s' : State) (h h' : History) : Prop where
  row : s'.payment = s.payment ∨ (s.payment.status = .approved ∧
    s'.payment.status = .cancelled ∧ (Reserved s → ¬ CancelSpares h'))
  reservation : s'.reservation = s.reservation
  credits : s'.ledgerCredits = s.ledgerCredits
  sent : ∀ k i, Sent s' k i ↔ Sent s k i
  badRead : BadRead h' → BadRead h

/-- What attempt `i` may rely on. -/
structure Rely (i : ℕ) (w w' : World env) : Prop where
  evolves : Evolves w.state w'.state
  history : w.history <:+ w'.history
  inside : inside i w'.history = inside i w.history
  sentSettle : sentSettle i w'.history = sentSettle i w.history
  recorded : recordedSettle i w'.history = recordedSettle i w.history
  alone : Analysis.inside i w.history = true → Alone w.state w'.state w.history w'.history
  lease : w.state.payment.executionLeaseId = some i →
    w'.state.payment.executionLeaseId = some i ∨ w'.state.payment.status = .cancelled

/-- An attempt is left alone when nothing happens. -/
theorem Alone.refl (s : State) (h : History) : Alone s s h h :=
  ⟨.inl rfl, rfl, rfl, fun _ _ => .rfl, id⟩

/-- It is left alone by what leaves it alone step by step. -/
theorem Alone.trans {s s' s'' : State} {h h' h'' : History} (ha : Alone s s' h h')
    (ha' : Alone s' s'' h' h'') (hs : h' <:+ h'') : Alone s s'' h h'' where
  row := by
    have hres : Reserved s' ↔ Reserved s := by rw [Reserved, Reserved, ha.reservation]
    rcases ha.row with hr | ⟨hst, hst', hc⟩ <;> rcases ha'.row with hr' | ⟨hst₁, hst₂, hc'⟩
    · exact .inl (hr'.trans hr)
    · exact .inr ⟨hr ▸ hst₁, hst₂, fun h => hc' (hres.mpr h)⟩
    · exact .inr ⟨hst, hr' ▸ hst', fun h hcs => hc h (hcs.of_suffix hs)⟩
    · rw [hst'] at hst₁
      cases hst₁
  reservation := ha'.reservation.trans ha.reservation
  credits := ha'.credits.trans ha.credits
  sent k i := (ha'.sent k i).trans (ha.sent k i)
  badRead hb := ha.badRead (ha'.badRead hb)

/-- An attempt may rely on what it has seen when nothing happens. -/
theorem Rely.refl (i : ℕ) (w : World env) : Rely i w w where
  evolves := .refl _
  history := List.suffix_refl _
  inside := rfl
  sentSettle := rfl
  recorded := rfl
  alone _ := .refl _ _
  lease h := .inl h

/-- It may rely on it step by step. -/
theorem Rely.trans {i : ℕ} {w w' w'' : World env} (h : Rely i w w') (h' : Rely i w' w'') :
    Rely i w w'' where
  evolves := h.evolves.trans h'.evolves
  history := h.history.trans h'.history
  inside := h'.inside.trans h.inside
  sentSettle := h'.sentSettle.trans h.sentSettle
  recorded := h'.recorded.trans h.recorded
  alone hi := (h.alone hi).trans (h'.alone (h.inside ▸ hi)) h'.history
  lease hl := by
    rcases h.lease hl with hl' | hc
    · exact h'.lease hl'
    · right
      rw [h'.evolves.status.terminal (by simp [hc, terminalStates]), hc]

/-- Before it has performed a statement, an attempt is not inside and has sent nothing. -/
structure Fresh (i : ℕ) (h : History) : Prop where
  outside : inside i h = false
  unsent : sentSettle i h = false
  unrecorded : recordedSettle i h = false

/-- The discipline of one payment. -/
def sagaDiscipline (env : Env) : Discipline (sagaService env) where
  Inv := Inv
  Rely := Rely
  Start i w := Fresh i w.history
  refl := Rely.refl
  trans _ _ _ _ := Rely.trans
  start_stable _ _ _ h hr :=
    ⟨hr.inside ▸ h.outside, hr.sentSettle ▸ h.unsent, hr.recorded ▸ h.unrecorded⟩

/-! ## One statement -/

/-- The two ways a statement goes: it fails and changes nothing, or it is performed. -/
theorem exec_cases {w w' : World env} {i : ℕ} {o : Stmt} {c : Choice} {r : Except Err o.Result}
    (h : w.exec i o c = some (r, w')) :
    (∃ m, r = .error (o.fault m) ∧ w' = ⟨w.state, ⟨i, o, r⟩ :: w.history⟩) ∨
    ∃ s', o.perform c w.state = some (r, s') ∧ w' = ⟨s', ⟨i, o, r⟩ :: w.history⟩ := by
  obtain ⟨s', he, rfl⟩ := Service.World.exec_eq_some.mp h
  simp only [Stmt.exec] at he
  split at he
  · rename_i m _
    simp only [Option.some.injEq, Prod.mk.injEq] at he
    obtain ⟨rfl, rfl⟩ := he
    exact .inl ⟨m, rfl, rfl⟩
  · exact .inr ⟨s', he, rfl⟩

/-- A failed database statement leaves its mark. -/
theorem dbFails_fault {i : ℕ} {o : Stmt} (ho : o.isDatabase = true) (m : String) :
    dbFails ⟨i, o, .error (o.fault m)⟩ = true := by
  simp [Stmt.fault, ho, dbFails]

/-- Two states with the same rows and chains. -/
structure SameCore (s s' : State) : Prop where
  payment : s'.payment = s.payment
  reservation : s'.reservation = s.reservation
  ledgerCredits : s'.ledgerCredits = s.ledgerCredits
  txs : s'.txs = s.txs
  escrow : s'.escrow = s.escrow

/-- A state has its own core. -/
theorem SameCore.refl (s : State) : SameCore s s := ⟨rfl, rfl, rfl, rfl, rfl⟩

/-- The core tells what was sent. -/
theorem SameCore.sent {s s' : State} (h : SameCore s s') {k : CallKind} {i : ℕ} :
    Sent s' k i ↔ Sent s k i := by simp [Sent, h.txs]

/-- A state evolves to one with the same core. -/
theorem SameCore.evolves {s s' : State} (h : SameCore s s') : Evolves s s' where
  status := h.payment ▸ .refl _
  identity := by rw [h.payment]
  quote _ := by rw [h.payment]
  txs := h.txs ▸ .refl _
  escrow n := .inl (by rw [h.escrow])
  credits _ := h.ledgerCredits

/-- An entry that neither claims, gives back, sends, moves nor reserves. -/
structure Reads (e : Entry sagaEffects) : Prop where
  claims : claims e = false
  gaveBack : gaveBack e = false
  sends : sends e = none
  movesTo : movesTo e = none
  reservesAs : reservesAs e = none

/-- A plain entry only reads, and no escrow. -/
theorem reads_of_plain {e : Entry sagaEffects} (h : plain e = true) :
    Reads e ∧ escrowRead e = none := by
  obtain ⟨h₁, h₂, h₃, h₄, h₅, h₆⟩ := plain_iff.mp h
  exact ⟨⟨h₁, h₂, h₃, h₄, h₅⟩, h₆⟩

namespace Reads

variable {e : Entry sagaEffects} {h : History}

/-- The same attempts are inside after a read. -/
theorem inside_cons (he : Reads e) (i : ℕ) : inside i (e :: h) = inside i h :=
  Analysis.inside_cons fun _ => ⟨he.claims, he.gaveBack⟩

/-- A read sends no settlement. -/
theorem sentSettle_cons (he : Reads e) (i : ℕ) : sentSettle i (e :: h) = sentSettle i h :=
  Analysis.sentSettle_cons fun _ => by simp [sendsKind, he.sends]

/-- A read records none. -/
theorem recordedSettle_cons (he : Reads e) (i : ℕ) :
    recordedSettle i (e :: h) = recordedSettle i h :=
  Analysis.recordedSettle_cons fun _ => by simp [he.movesTo]

/-- The cancels have spared the payment after a read if they had before. -/
theorem cancelSpares_cons (he : Reads e) : CancelSpares (e :: h) ↔ CancelSpares h :=
  Analysis.cancelSpares_cons (by simp [he.movesTo])

end Reads

/-- A step that changes no row and no chain keeps the invariant; an escrow read must not
strand a payment that is not at `CONFIRMED_ONCHAIN`. -/
theorem inv_reads {w : World env} (hinv : Inv w) {s' : State} (hs : SameCore w.state s')
    {e : Entry sagaEffects} (he : Reads e)
    (hb : BadRead (e :: w.history) → BadRead w.history ∨
      w.state.payment.status = .confirmedOnchain) :
    Inv (⟨s', e :: w.history⟩ : World env) where
  lease := by
    obtain ⟨ha, hh, hl, hy⟩ := hinv.lease
    constructor <;> simp only [he.inside_cons, hs.payment]
    exacts [ha, hh, hl, hy]
  chain :=
    ⟨fun n k hk => by
      have := hinv.chain.counted n k hk
      simpa [successes, hs.txs, hs.escrow] using this,
    fun tx ht => by
      have := hinv.chain.home tx (hs.txs ▸ ht)
      simpa [hs.payment] using this⟩
  truth := hinv.truth.congr ⟨by rw [hs.payment], by rw [hs.payment], by rw [hs.payment],
    by rw [hs.payment], by rw [hs.payment]⟩ (by rw [hs.reservation]) hs.ledgerCredits hs.txs
    hs.escrow
  trace := by
    obtain ⟨ht, hr, hst, hbr⟩ := hinv.trace
    refine ⟨?_, ?_, ?_, ?_⟩
    · intro e' he' t hsend
      rw [hs.txs]
      rcases List.mem_cons.mp he' with rfl | hmem
      · rw [he.sends] at hsend
        cases hsend
      · exact ht e' hmem t hsend
    · rw [reservedIn_cons he.reservesAs, hr, Reserved, Reserved, hs.reservation]
    · intro hstat i hi
      exact .inl (hst (hs.payment ▸ hstat) i (hs.sent.mp hi))
    · intro hbad
      simp only [hs.payment]
      rcases hb hbad with h | h
      · exact hbr h
      · exact .inl h
  rest hin hok := by
    obtain ⟨hm, hst, hsp, hc⟩ := hinv.rest (fun i => by simpa [he.inside_cons] using hin i)
      hok.tail
    refine ⟨?_, ?_, ?_, ?_⟩ <;>
      simp only [Reserved, hs.payment, hs.reservation, he.cancelSpares_cons]
    exacts [hm, hst, hsp, hc]

/-- A step that changes no row and no chain is within everybody's rely. -/
theorem rely_reads {w : World env} {s' : State} (hs : SameCore w.state s')
    {e : Entry sagaEffects} (he : Reads e) (j : ℕ)
    (hb : inside j w.history = true → BadRead (e :: w.history) → BadRead w.history) :
    Rely j w ⟨s', e :: w.history⟩ where
  evolves := hs.evolves
  history := List.suffix_cons _ _
  inside := he.inside_cons j
  sentSettle := he.sentSettle_cons j
  recorded := he.recordedSettle_cons j
  alone hj := ⟨.inl hs.payment, hs.reservation, hs.ledgerCredits, fun _ _ => hs.sent, hb hj⟩
  lease hl := .inl (by simpa [hs.payment] using hl)

/-- The steps of the attempt that is inside are within everybody else's rely. -/
theorem keeps_inside {w : World env} {i : ℕ} (hinv : Inv w) (hi : inside i w.history = true)
    {s' : State} {e : Entry sagaEffects} (he : e.tid = i) (hev : Evolves w.state s')
    (hinv' : Inv (⟨s', e :: w.history⟩ : World env)) :
    (sagaDiscipline env).Keeps i w ⟨s', e :: w.history⟩ := by
  refine ⟨hinv', fun j hj => ?_⟩
  have hne : e.tid ≠ j := fun h => hj (h.symm.trans he)
  exact {
    evolves := hev
    history := List.suffix_cons _ _
    inside := inside_cons_ne hne
    sentSettle := sentSettle_cons fun h => absurd h hne
    recorded := recordedSettle_cons fun h => absurd h hne
    alone := fun hin => absurd (hinv.lease.alone j i hin hi) hj
    lease := fun hl => by
      rcases hinv.lease.held i hi with hl' | hrel
      · rw [hl, Option.some.injEq] at hl'
        exact absurd hl' hj
      · exact absurd hrel (hinv.lease.live (by simp [hl])) }

end SettlementOS.Analysis
