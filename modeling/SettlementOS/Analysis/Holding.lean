import SettlementOS.Analysis.Steps

/-!
# What an attempt knows between two statements

Past `APPROVED` nobody but the attempt inside moves the payment, so its local copy of the row
stays true: `Holding i p w` says that attempt `i` is inside and `p` agrees with the row.
`Frame` is what the others leave as it is meanwhile, and `Leaves` is what every leased section
owes at its end, however it ends.
-/

set_option autoImplicit false

namespace SettlementOS.Analysis

open SettlementOS.Computation Model Program Discipline

variable {env : Env} {i : ℕ} {p : Payment} {w w' : World env}

/-- The row, the transactions and what the history says of attempt `i` are as they were. -/
structure Undisturbed (i : ℕ) (w w' : World env) : Prop where
  payment : w'.state.payment = w.state.payment
  sent : ∀ k j, Sent w'.state k j ↔ Sent w.state k j
  badRead : BadRead w'.history → BadRead w.history
  evolves : Evolves w.state w'.state
  history : w.history <:+ w'.history
  inside : inside i w'.history = inside i w.history
  sentSettle : sentSettle i w'.history = sentSettle i w.history
  recorded : recordedSettle i w'.history = recordedSettle i w.history

/-- What the others leave as it is while attempt `i` holds a payment past `APPROVED`. -/
structure Frame (i : ℕ) (w w' : World env) : Prop extends Undisturbed i w w' where
  reservation : w'.state.reservation = w.state.reservation
  credits : w'.state.ledgerCredits = w.state.ledgerCredits

/-- While attempt `i` holds a payment past `APPROVED` the others leave its frame as it is. -/
theorem Rely.frame (h : Rely i w w') (hi : Analysis.inside i w.history = true)
    (hst : w.state.payment.status ≠ .approved) : Frame i w w' where
  payment := (h.alone hi).row.resolve_right fun hc => hst hc.1
  reservation := (h.alone hi).reservation
  credits := (h.alone hi).credits
  sent := (h.alone hi).sent
  badRead := (h.alone hi).badRead
  evolves := h.evolves
  history := h.history
  inside := h.inside
  sentSettle := h.sentSettle
  recorded := h.recorded

/-- A write to a row other than the payment's disturbs nothing. -/
theorem undisturbed_write {s : State} {e : Entry sagaEffects} (hp : s.payment = w.state.payment)
    (hev : Evolves w.state s) (ht : s.txs = w.state.txs) (hcl : claims e = false)
    (hgb : gaveBack e = false) (hse : sends e = none) (hmv : movesTo e = none)
    (her : escrowRead e = none) : Undisturbed i w ⟨s, e :: w.history⟩ where
  payment := hp
  sent k j := by simp [Sent, ht]
  badRead := (badRead_cons her).mp
  evolves := hev
  history := List.suffix_cons _ _
  inside := inside_cons fun _ => ⟨hcl, hgb⟩
  sentSettle := sentSettle_cons fun _ => by simp [sendsKind, hse]
  recorded := recordedSettle_cons fun _ => by simp [hmv]

/-- Within a frame it stays reserved or not. -/
theorem Frame.reserved (h : Frame i w w') : Reserved w'.state ↔ Reserved w.state := by
  rw [Reserved, Reserved, h.reservation]

/-- Attempt `i` is inside, past `APPROVED`, and `p` is its copy of the row. -/
structure Holding (i : ℕ) (p : Payment) (w : World env) : Prop where
  inside : inside i w.history = true
  status : w.state.payment.status = p.status
  late : 5 ≤ p.status.rank
  identity : identity w.state.payment = identity p
  quote : quoteOf w.state.payment = quoteOf p
  payoutHash : ∀ h, p.destinationTxHash = some h → Sent w.state .payout h
  compensationHash : ∀ h, p.compensationTxHash = some h → Sent w.state .compensation h

namespace Holding

/-- The payment's source network is that of the local copy. -/
theorem sourceNetwork (h : Holding i p w) :
    w.state.payment.sourceNetwork = p.sourceNetwork := identity_sourceNetwork h.identity

/-- Who holds a payment holds one past `APPROVED`. -/
theorem not_approved (h : Holding i p w) : w.state.payment.status ≠ .approved := by
  intro hs
  have := h.late
  rw [← h.status, hs] at this
  simp [PaymentStatus.rank] at this

/-- An attempt goes on holding what nothing disturbs. -/
theorem undisturbed (h : Holding i p w) (hf : Undisturbed i w w') : Holding i p w' where
  inside := hf.inside.trans h.inside
  status := by rw [hf.payment, h.status]
  late := h.late
  identity := by rw [hf.payment, h.identity]
  quote := by rw [hf.payment, h.quote]
  payoutHash j hj := (hf.sent _ _).mpr (h.payoutHash j hj)
  compensationHash j hj := (hf.sent _ _).mpr (h.compensationHash j hj)

/-- The row itself is a copy of the row. -/
theorem refresh (h : Holding i p w) (hinv : Inv w) : Holding i w.state.payment w where
  inside := h.inside
  status := rfl
  late := by rw [h.status]; exact h.late
  identity := rfl
  quote := rfl
  payoutHash j hj := hinv.truth.payoutHash j hj
  compensationHash j hj := hinv.truth.compensationHash j hj

/-- Writing a hash, a clock or a reason leaves the local copy true. -/
theorem updated (h : Holding i p w) {data : PaymentPatch} (hd : Plain data)
    (hq : data.quoteJson = none ∧ data.selectedRouteId = none) {row : Payment}
    (hrow : row = w.state.payment.apply data) :
    Holding i p (⟨{ w.state with payment := row },
      ⟨i, .updatePayment data, .ok row⟩ :: w.history⟩ : World env) where
  inside := (inside_cons fun _ => ⟨rfl, rfl⟩).trans h.inside
  status := by
    rw [← h.status, hrow]
    simp [Payment.apply, hd.status]
  late := h.late
  identity := by rw [← h.identity, hrow]; rfl
  quote := by
    rw [← h.quote, hrow]
    simp [quoteOf, Payment.apply, hq]
  payoutHash := h.payoutHash
  compensationHash := h.compensationHash

end Holding

/-- What an attempt knows stays so, when the others leave what it is about alone. -/
theorem stable_of_frame {P : World env → Prop}
    (hin : ∀ w, P w → inside i w.history = true ∧ w.state.payment.status ≠ .approved)
    (hP : ∀ w w', Frame i w w' → P w → P w') : (sagaDiscipline env).Stable i P := by
  intro w w' h _ hr
  obtain ⟨hi, hst⟩ := hin w h
  exact hP w w' (Rely.frame hr hi hst) h

/-! ## The end of a leased section -/

/-- The attempt is still inside, and unless the database has failed the payment is where it may
be left. -/
structure Leaves (i : ℕ) (w : World env) : Prop where
  inside : inside i w.history = true
  rest : DbOk w.history → RestAt env w.state w.history

/-- What a leased section owes at its end is not disturbed by others. -/
theorem stable_leaves : (sagaDiscipline env).Stable i (Leaves i) := by
  intro w w' h _ hr
  refine ⟨hr.inside.trans h.inside, fun hok => ?_⟩
  have hrest := h.rest (hok.of_suffix hr.history)
  have ha := hr.alone h.inside
  have hres : Reserved w'.state ↔ Reserved w.state := by rw [Reserved, Reserved, ha.reservation]
  rcases ha.row with hrow | ⟨hst, hst', hc⟩
  · refine ⟨?_, ?_, fun hcs hr' => ?_, ?_⟩
    · simpa only [hrow] using hrest.moving
    · simpa only [hrow] using hrest.stuck
    · simpa only [hrow] using hrest.spared (hcs.of_suffix hr.history) (hres.mp hr')
    · simpa only [hrow, ha.reservation] using hrest.consumed
  · refine ⟨?_, ?_, fun hcs hr' => ?_, ?_⟩
    · simp [hst']
    · simp [hst']
    · exact absurd hcs (hc (hres.mp hr'))
    · simp [hst']

/-- After a database failure nothing is owed. -/
theorem leaves_of_failure (hi : inside i w.history = true) (h : ¬ DbOk w.history) :
    Leaves i w := ⟨hi, fun hok => absurd hok h⟩

/-! ## After a write -/

namespace Moved

variable {P : World env → Prop} {status next : PaymentStatus} {opts : TransitionOpts}
  {row : Payment}

/-- The row is the one that was written. -/
theorem row_eq (h : Moved i P status next opts row w w') : w'.state.payment = row := by
  rw [h.state]

/-- The same attempts are inside. -/
theorem inside_eq (h : Moved i P status next opts row w w') (j : ℕ) :
    inside j w'.history = inside j w.history := by
  rw [h.history]
  exact inside_cons fun _ => ⟨rfl, rfl⟩

/-- If no statement has failed by now, none had before. -/
theorem dbOk (h : Moved i P status next opts row w w') :
    DbOk w'.history → DbOk w.history := by
  rw [h.history]
  exact DbOk.tail

/-- If the cancels have spared the payment by now, they had before. -/
theorem cancelSpares (h : Moved i P status next opts row w w') :
    CancelSpares w'.history → CancelSpares w.history := by
  rw [h.history]
  exact fun hc => hc.1

/-- A status change reads no escrow. -/
theorem badRead (h : Moved i P status next opts row w w') :
    BadRead w'.history ↔ BadRead w.history := by
  rw [h.history]
  exact badRead_cons rfl

/-- It stays reserved or not. -/
theorem reserved (h : Moved i P status next opts row w w') :
    Reserved w'.state ↔ Reserved w.state := by
  rw [h.state]
  exact .rfl

/-- Nothing is sent. -/
theorem sent (h : Moved i P status next opts row w w') {k : CallKind} {j : ℕ} :
    Sent w'.state k j ↔ Sent w.state k j := by
  rw [h.state]
  exact .rfl

/-- The row has the status asked for. -/
theorem row_status (h : Moved i P status next opts row w w') (hd : Plain opts.data) :
    row.status = next := by
  rw [h.written, apply_status _ _ _ hd.status]

/-- The row that was handed back is a true copy. -/
theorem holding (h : Moved i P status next opts row w w') (hd : Plain opts.data)
    (hi : inside i w.history = true) (hn : 5 ≤ next.rank) : Holding i row w' where
  inside := (h.inside_eq i).trans hi
  status := by rw [h.row_eq]
  late := by rw [h.row_status hd]; exact hn
  identity := by rw [h.row_eq]
  quote := by rw [h.row_eq]
  payoutHash j hj := h.after.truth.payoutHash j (by rw [h.row_eq, hj])
  compensationHash j hj := h.after.truth.compensationHash j (by rw [h.row_eq, hj])

end Moved

namespace SentBy

variable {P : World env → Prop} {network : Network} {c : Call} {hash : ℕ}

/-- The same attempts are inside. -/
theorem inside_eq (h : SentBy i P network c hash w w') (j : ℕ) :
    inside j w'.history = inside j w.history := by
  rw [h.history]
  exact inside_cons fun _ => ⟨rfl, rfl⟩

/-- The sent call is there with those that were there. -/
theorem sent (h : SentBy i P network c hash w w') {k : CallKind} {j : ℕ} :
    Sent w'.state k j ↔ Sent w.state k j ∨ (j = hash ∧ c.kind = k) := by
  rw [h.state, h.fresh]
  exact sent_send

/-- A sent call reads no escrow. -/
theorem badRead (h : SentBy i P network c hash w w') :
    BadRead w'.history ↔ BadRead w.history := by
  rw [h.history]
  exact badRead_cons rfl

/-- If no statement has failed by now, none had before. -/
theorem dbOk (h : SentBy i P network c hash w w') :
    DbOk w'.history → DbOk w.history := by
  rw [h.history]
  exact DbOk.tail

/-- If the cancels have spared the payment by now, they had before. -/
theorem cancelSpares (h : SentBy i P network c hash w w') :
    CancelSpares w'.history → CancelSpares w.history := by
  rw [h.history]
  exact fun hc => hc.1

/-- The row is as it was. -/
theorem payment (h : SentBy i P network c hash w w') :
    w'.state.payment = w.state.payment := by
  rw [h.state]
  rfl

/-- The reservation is as it was. -/
theorem reservation (h : SentBy i P network c hash w w') :
    w'.state.reservation = w.state.reservation := by
  rw [h.state]
  rfl

/-- The credits are as they were. -/
theorem credits (h : SentBy i P network c hash w w') :
    w'.state.ledgerCredits = w.state.ledgerCredits := by
  rw [h.state]
  rfl

/-- The local copy stays true when one's own transaction is sent. -/
theorem holding (h : SentBy i P network c hash w w') (hh : Holding i p w) :
    Holding i p w' where
  inside := (h.inside_eq i).trans hh.inside
  status := by rw [h.payment, hh.status]
  late := hh.late
  identity := by rw [h.payment, hh.identity]
  quote := by rw [h.payment, hh.quote]
  payoutHash j hj := h.sent.mpr (.inl (hh.payoutHash j hj))
  compensationHash j hj := h.sent.mpr (.inl (hh.compensationHash j hj))

end SentBy

/-- A transaction sent with `operatorWrite`: it is confirmed, or it was sent and not confirmed,
or it was not sent. -/
theorem safe_operatorWrite {P : World env → Prop} {T : ℕ → World env → Prop}
    {network : Network} {c : Call} (hst : (sagaDiscipline env).Stable i P) (hw : P w)
    (hst' : ∀ h, (sagaDiscipline env).Stable i (T h))
    (hin : ∀ w, P w → inside i w.history = true)
    (hpre : ∀ w, Inv w → P w → c.kind ∈ broadcastable w.state.payment.status ∧
      (c.kind ∈ contractCalls → network = w.state.payment.sourceNetwork) ∧
      (c.kind = .payout → (∀ j, ¬ Sent w.state .payout j) ∧ w.state.ledgerCredits = [] ∧
        w.state.payment.status ∉ compensationStates) ∧
      (c.kind = .settle → w.state.payment.status ∉ strandedStates))
    (hsent : ∀ h w w', SentBy i P network c h w w' → T h w') :
    (sagaDiscipline env).Safe i (fun r w => T r.hash w ∧ Mined w.state r.hash true)
      (fun _ w => P w ∨ ∃ h, T h w) (operatorWrite env network c) w := by
  refine safe_bind (safe_mono (safe_lift hw) ?_ fun e w h => .inl h.1)
  rintro _ w ⟨hw, -⟩
  refine safe_bind (safe_mono (safe_lift hw) ?_ fun e w h => .inl h.1)
  rintro retries w ⟨hw, -⟩
  have hsend : ∀ w, P w → (sagaDiscipline env).Safe i (fun h w => T h w) (fun _ w => P w)
      ((lift (env.contracts network)).bind fun _ => call (.writeContract network c)) w := by
    intro w hw
    refine safe_bind (safe_mono (safe_lift hw) ?_ fun e w h => h.1)
    rintro _ w ⟨hw, -⟩
    refine safe_mono (safe_writeContract hst hw hin hpre) ?_ fun _ _ h => h
    rintro h w' ⟨w₀, hs⟩
    exact hsent h w₀ w' hs
  have hretry : ∀ n w, P w → (sagaDiscipline env).Safe i (fun h w => T h w) (fun _ w => P w)
      (retryOnReplicaLag ((lift (env.contracts network)).bind fun _ =>
        call (.writeContract network c)) (replicaLagMessage c) n) w := by
    intro n
    induction n with
    | zero => exact hsend
    | succ n ih =>
      intro w hw
      refine safe_handle (safe_mono (hsend w hw) (fun _ _ h => h) fun e w hw => ?_)
      split
      · exact ih w hw
      · exact hw
  refine safe_bind (safe_mono (hretry retries w hw) ?_ fun e w h => .inl h)
  intro h w hP'
  refine safe_mono (safe_confirm (hst' h) hP' network h) ?_ fun _ w hx => .inr ⟨h, hx⟩
  rintro r w ⟨rfl, hP, hm⟩
  exact ⟨hP, hm⟩

/-- `treasuryTokenTransfer`: the transfer is sent, or it is not. -/
theorem safe_treasuryTokenTransfer {P : World env → Prop} {leg : Leg} {network : Network}
    {symbol : AssetSymbol} {recipient : String} {amount : ℕ}
    (hst : (sagaDiscipline env).Stable i P) (hw : P w)
    (hin : ∀ w, P w → inside i w.history = true)
    (hpre : ∀ w, Inv w → P w → ∀ c : Call, c.kind = (Call.transfer leg "" "" 0).kind →
      c.kind ∈ broadcastable w.state.payment.status ∧
      (c.kind = .payout → (∀ j, ¬ Sent w.state .payout j) ∧ w.state.ledgerCredits = [] ∧
        w.state.payment.status ∉ compensationStates)) :
    (sagaDiscipline env).Safe i
      (fun hash w' => ∃ w c, c.kind = (Call.transfer leg "" "" 0).kind ∧
        SentBy i P network c hash w w')
      (fun _ w => P w) (treasuryTokenTransfer env leg network symbol recipient amount) w := by
  refine safe_bind (safe_mono (safe_lift hw) ?_ fun e w h => h.1)
  rintro contracts w ⟨hw, -⟩
  refine safe_bind (safe_mono (safe_lift hw) ?_ fun e w h => h.1)
  rintro token w ⟨hw, -⟩
  refine safe_bind (safe_mono (safe_lift hw) ?_ fun e w h => h.1)
  rintro _ w ⟨hw, -⟩
  have hkind : (Call.transfer leg token.address recipient amount).kind =
      (Call.transfer leg "" "" 0).kind := by cases leg <;> rfl
  refine safe_mono (safe_writeContract hst hw hin fun w hinv hP => ?_) ?_ fun _ _ h => h
  · obtain ⟨hk, hp⟩ := hpre w hinv hP _ hkind
    refine ⟨hk, fun hc => ?_, hp, fun hs => ?_⟩
    · rw [hkind] at hc
      cases leg <;> simp [Call.kind, contractCalls] at hc
    · rw [hkind] at hs
      cases leg <;> simp [Call.kind] at hs
  · rintro h w' ⟨w₀, hs⟩
    exact ⟨w₀, _, hkind, hs⟩

end SettlementOS.Analysis
