import SettlementOS.Analysis.History

/-!
# What no step undoes

Facts about the shared state that every step of every party keeps, mining included: a
status only moves along the lifecycle, a transaction that was sent stays sent and a mined
one keeps its receipt, a released or refunded escrow stays so, and a ledger credit is never
taken back. `Evolves` collects them. The settlement contract's guards give the rest:
`ChainInv` ties the escrow to the calls that have succeeded, each at most once.
-/

set_option autoImplicit false

namespace SettlementOS.Analysis

open SettlementOS.Computation Model Program

/-! ## Transactions -/

/-- Transaction `h` was sent, and is of kind `k`. -/
def Sent (s : State) (k : CallKind) (h : ℕ) : Prop :=
  ∃ tx, s.txs[h]? = some tx ∧ tx.call.kind = k

/-- Transaction `h` was mined: successfully, or reverting. -/
def Mined (s : State) (h : ℕ) (success : Bool) : Prop :=
  ∃ tx r, s.txs[h]? = some tx ∧ tx.receipt = some r ∧ r.success = success

/-- How many calls of a kind have succeeded on a network. -/
def successes (s : State) (network : Network) (k : CallKind) : ℕ :=
  s.txs.countP fun (tx : Tx) =>
    tx.network == network && tx.call.kind == k && tx.receipt.any (·.success)

/-- The transactions of `l` are the first of `l'`, and none has lost its receipt. -/
def TxsEvolve (l l' : List Tx) : Prop :=
  ∀ (h : ℕ) (tx : Tx), l[h]? = some tx → ∃ tx' : Tx, l'[h]? = some tx' ∧ tx'.network = tx.network ∧
    tx'.call = tx.call ∧ ∀ r, tx.receipt = some r → tx'.receipt = some r

/-- Transactions evolve to themselves. -/
theorem TxsEvolve.refl (l : List Tx) : TxsEvolve l l :=
  fun _ tx h => ⟨tx, h, rfl, rfl, fun _ hr => hr⟩

/-- They evolve step by step. -/
theorem TxsEvolve.trans {l l' l'' : List Tx} (h : TxsEvolve l l') (h' : TxsEvolve l' l'') :
    TxsEvolve l l'' := by
  intro i tx hi
  obtain ⟨tx', hi', hn, hc, hr⟩ := h i tx hi
  obtain ⟨tx'', hi'', hn', hc', hr'⟩ := h' i tx' hi'
  exact ⟨tx'', hi'', hn'.trans hn, hc'.trans hc, fun r h => hr' r (hr r h)⟩

/-- Sending one more keeps what was sent. -/
theorem TxsEvolve.append (l : List Tx) (tx : Tx) : TxsEvolve l (l ++ [tx]) := by
  intro h tx' hi
  refine ⟨tx', ?_, rfl, rfl, fun _ hr => hr⟩
  rw [List.getElem?_append_left (List.getElem?_eq_some_iff.mp hi).1, hi]

/-- Mining a pending transaction keeps what was sent. -/
theorem TxsEvolve.mine {l : List Tx} {hash : ℕ} {network : Network} {c : Call} {r : Receipt}
    (hl : l[hash]? = some ⟨network, c, none⟩) :
    TxsEvolve l (l.set hash ⟨network, c, some r⟩) := by
  intro h tx hi
  by_cases hh : h = hash
  · subst hh
    rw [hl, Option.some.injEq] at hi
    subst hi
    have hlt := (List.getElem?_eq_some_iff.mp hl).1
    exact ⟨_, List.getElem?_set_self hlt, rfl, rfl, fun _ hr => by cases hr⟩
  · exact ⟨tx, by rw [List.getElem?_set_ne (Ne.symm hh), hi], rfl, rfl, fun _ hr => hr⟩

/-! ## The escrow -/

/-- The contract may lead an escrow from `e` to `e'`. -/
def EscrowLeads (e e' : OnchainPaymentState) : Prop :=
  e' = e ∨ e = .none ∨ (e = .initiated ∧ e' ≠ .none)

/-- What leads on to what leads on leads on. -/
theorem EscrowLeads.trans {e e' e'' : OnchainPaymentState} (h : EscrowLeads e e')
    (h' : EscrowLeads e' e'') : EscrowLeads e e'' := by
  rcases h with rfl | rfl | ⟨rfl, hne⟩
  · exact h'
  · exact .inr (.inl rfl)
  · rcases h' with rfl | rfl | ⟨-, hne'⟩
    · exact .inr (.inr ⟨rfl, hne⟩)
    · exact absurd rfl hne
    · exact .inr (.inr ⟨rfl, hne'⟩)

/-- An escrow that is over stays as it is. -/
theorem EscrowLeads.final {e e' : OnchainPaymentState} (h : EscrowLeads e e')
    (hn : e ≠ .none) (hi : e ≠ .initiated) : e' = e := by
  rcases h with h | h | ⟨h, -⟩
  · exact h
  · exact absurd h hn
  · exact absurd h hi

/-- A call whose guard holds leads the escrow on. -/
theorem escrowLeads_effect {k : CallKind} {e : OnchainPaymentState}
    (h : k.admitted e = true) : EscrowLeads e (k.effect e) := by
  cases k <;> simp [CallKind.admitted] at h <;> simp [EscrowLeads, CallKind.effect, h]

/-! ## Evolution of the state -/

/-- The columns nothing ever writes after the creation. -/
def identity (p : Payment) : String × String × String × String × String × Network :=
  (p.id, p.recipientId, p.amount, p.sourceCurrency, p.destinationCurrency, p.sourceNetwork)

/-- The source network is part of the identity. -/
theorem identity_sourceNetwork {p p' : Payment} (h : identity p' = identity p) :
    p'.sourceNetwork = p.sourceNetwork := by
  simp only [identity, Prod.mk.injEq] at h
  exact h.2.2.2.2.2

/-- The columns the selected route is read from. -/
def quoteOf (p : Payment) : Option (List RouteOption) × Option String :=
  (p.quoteJson, p.selectedRouteId)

/-- The state `s'` may come after `s`, whoever has moved in between. -/
structure Evolves (s s' : State) : Prop where
  status : s.payment.status.Leads s'.payment.status
  identity : identity s'.payment = identity s.payment
  quote : 2 ≤ s.payment.status.rank → quoteOf s'.payment = quoteOf s.payment
  txs : TxsEvolve s.txs s'.txs
  escrow : ∀ n, EscrowLeads (s.escrow n) (s'.escrow n)
  credits : s.ledgerCredits ≠ [] → s'.ledgerCredits = s.ledgerCredits

/-- A state evolves to itself. -/
theorem Evolves.refl (s : State) : Evolves s s where
  status := .refl _
  identity := rfl
  quote _ := rfl
  txs := .refl _
  escrow _ := .inl rfl
  credits _ := rfl

/-- States evolve step by step. -/
theorem Evolves.trans {s s' s'' : State} (h : Evolves s s') (h' : Evolves s' s'') :
    Evolves s s'' where
  status := h.status.trans h'.status
  identity := h'.identity.trans h.identity
  quote hs := (h'.quote (Nat.le_trans hs h.status.rank_le)).trans (h.quote hs)
  txs := h.txs.trans h'.txs
  escrow n := (h.escrow n).trans (h'.escrow n)
  credits hc := (h'.credits (by rw [h.credits hc]; exact hc)).trans (h.credits hc)

/-- What was sent stays sent. -/
theorem Evolves.sent {s s' : State} (h : Evolves s s') {k : CallKind} {hash : ℕ}
    (hs : Sent s k hash) : Sent s' k hash := by
  obtain ⟨tx, ht, hk⟩ := hs
  obtain ⟨tx', ht', -, hc, -⟩ := h.txs hash tx ht
  exact ⟨tx', ht', hc ▸ hk⟩

/-- What was mined stays mined as it was. -/
theorem Evolves.mined {s s' : State} (h : Evolves s s') {hash : ℕ} {b : Bool}
    (hm : Mined s hash b) : Mined s' hash b := by
  obtain ⟨tx, r, ht, hr, hb⟩ := hm
  obtain ⟨tx', ht', -, -, hr'⟩ := h.txs hash tx ht
  exact ⟨tx', r, ht', hr' r hr, hb⟩

/-- A receipt is one or the other. -/
theorem Mined.unique {s : State} {hash : ℕ} {b b' : Bool} (h : Mined s hash b)
    (h' : Mined s hash b') : b = b' := by
  obtain ⟨tx, r, ht, hr, hb⟩ := h
  obtain ⟨tx', r', ht', hr', hb'⟩ := h'
  rw [ht, Option.some.injEq] at ht'
  subst ht'
  rw [hr, Option.some.injEq] at hr'
  subst hr'
  exact hb.symm.trans hb'

/-- Reading a receipt that is there. -/
theorem mined_of_receipt {s : State} {network : Network} {hash : ℕ} {r : Receipt}
    (h : s.receipt network hash = some r) : Mined s hash r.success := by
  unfold State.receipt at h
  cases ht : s.txs[hash]? with
  | none => simp [ht] at h
  | some tx =>
    rw [ht] at h
    by_cases hn : tx.network = network
    · exact ⟨tx, r, ht, by simpa [hn] using h, rfl⟩
    · simp [hn] at h

/-! ## Sending and mining -/

/-- The state with one transaction more. -/
def send (s : State) (network : Network) (c : Call) : State :=
  { s with txs := s.txs ++ [⟨network, c, none⟩] }

/-- The transactions sent after one more was. -/
theorem sent_send {s : State} {network : Network} {c : Call} {k : CallKind} {h : ℕ} :
    Sent (send s network c) k h ↔ Sent s k h ∨ (h = s.txs.length ∧ c.kind = k) := by
  unfold Sent send
  simp only [List.getElem?_append]
  split
  · rename_i hlt
    constructor
    · exact .inl
    · rintro (hs | ⟨rfl, -⟩)
      · exact hs
      · exact absurd hlt (Nat.lt_irrefl _)
  · rename_i hge
    constructor
    · rintro ⟨tx, ht, hk⟩
      have hz : h - s.txs.length = 0 := by
        by_contra hne
        rw [List.getElem?_eq_none (by simp; omega)] at ht
        cases ht
      rw [hz] at ht
      simp only [List.getElem?_cons_zero, Option.some.injEq] at ht
      subst ht
      exact .inr ⟨by omega, hk⟩
    · rintro (⟨tx, ht, -⟩ | ⟨rfl, hk⟩)
      · exact absurd (List.getElem?_eq_some_iff.mp ht).1 (by omega)
      · exact ⟨⟨network, c, none⟩, by simp, hk⟩

/-- Sending adds a transaction. -/
theorem evolves_send (s : State) (network : Network) (c : Call) :
    Evolves s (send s network c) where
  status := .refl _
  identity := rfl
  quote _ := rfl
  txs := .append _ _
  escrow _ := .inl rfl
  credits _ := rfl

/-- What mining does: a pending transaction gets a receipt, and the escrow moves when the
contract's guard held and the call succeeded. -/
theorem mine_eq_some {s s' : State} {m : Mining} (h : m.exec s = some s') :
    ∃ hash network c r, s.txs[hash]? = some ⟨network, c, none⟩ ∧
      (r.success = true → c.kind.admitted (s.escrow network) = true) ∧
      s' = { s with
        txs := s.txs.set hash ⟨network, c, some r⟩
        escrow := if r.success then
            Function.update s.escrow network (c.kind.effect (s.escrow network))
          else s.escrow } := by
  obtain ⟨hash, accepted, blockNumber, gasUsed⟩ := m
  simp only [Mining.exec] at h
  split at h
  · rename_i network c ht
    simp only [Option.some.injEq] at h
    refine ⟨hash, network, c, ⟨Tx.succeeds ⟨network, c, none⟩ accepted s, blockNumber, gasUsed⟩,
      ht, ?_, h.symm⟩
    intro hs
    simp only [Tx.succeeds, Bool.and_eq_true] at hs
    exact hs.2
  · cases h

/-- Mining moves no row. -/
theorem mine_rows {s s' : State} {m : Mining} (h : m.exec s = some s') :
    s'.payment = s.payment ∧ s'.reservation = s.reservation ∧
      s'.ledgerCredits = s.ledgerCredits := by
  obtain ⟨hash, network, c, r, -, -, rfl⟩ := mine_eq_some h
  exact ⟨rfl, rfl, rfl⟩

/-- Mining fills in a receipt. -/
theorem evolves_mine {s s' : State} {m : Mining} (h : m.exec s = some s') : Evolves s s' := by
  obtain ⟨hash, network, c, r, ht, hg, rfl⟩ := mine_eq_some h
  refine ⟨.refl _, rfl, fun _ => rfl, .mine ht, fun n => ?_, fun _ => rfl⟩
  by_cases hs : r.success = true
  · by_cases hn : n = network
    · subst hn
      simpa [hs] using escrowLeads_effect (hg hs)
    · simp [hs, hn, EscrowLeads]
  · simp [hs, EscrowLeads]

/-- Mining sends nothing. -/
theorem sent_mine {s s' : State} {m : Mining} (h : m.exec s = some s') {k : CallKind}
    {hash : ℕ} : Sent s' k hash ↔ Sent s k hash := by
  refine ⟨?_, (evolves_mine h).sent⟩
  obtain ⟨h₀, network, c, r, ht, -, rfl⟩ := mine_eq_some h
  rintro ⟨tx, htx, hk⟩
  by_cases hh : hash = h₀
  · subst hh
    rw [List.getElem?_set_self (List.getElem?_eq_some_iff.mp ht).1, Option.some.injEq] at htx
    subst htx
    exact ⟨_, ht, hk⟩
  · rw [List.getElem?_set_ne (Ne.symm hh)] at htx
    exact ⟨tx, htx, hk⟩

/-! ## The escrow and the calls that succeeded -/

/-- The kinds of call the settlement contract takes. -/
def contractCalls : List CallKind := [.initiate, .settle, .refund]

/-- Whether an escrow in this state has seen a call of this kind succeed. -/
def happened : CallKind → OnchainPaymentState → Bool
  | .initiate, e => e != .none
  | .settle, e => e == .settled
  | .refund, e => e == .refunded
  | _, _ => false

/-- A call the contract admits has not happened before, and moves the escrow so that exactly
this one has happened since. -/
theorem happened_effect {k k' : CallKind} {e : OnchainPaymentState} (hk : k ∈ contractCalls)
    (ha : k'.admitted e = true) :
    (happened k (k'.effect e)).toNat = (happened k e).toNat + if k' = k then 1 else 0 := by
  revert ha
  cases k <;> simp [contractCalls] at hk <;> cases k' <;> cases e <;> decide

/-- The contract's own bookkeeping. Every call to it is made on the payment's source network,
and each kind of call has succeeded exactly as often as the escrow's state says. -/
structure ChainInv (s : State) : Prop where
  counted : ∀ n k, k ∈ contractCalls → successes s n k = (happened k (s.escrow n)).toNat
  home : ∀ tx : Tx, tx ∈ s.txs → tx.call.kind ∈ contractCalls →
    tx.network = s.payment.sourceNetwork

/-- What was sent has not succeeded yet. -/
theorem successes_send (s : State) (network : Network) (c : Call) (n : Network)
    (k : CallKind) : successes (send s network c) n k = successes s n k := by
  simp [successes, send]

/-- A call to the contract is sent on the source network. -/
theorem ChainInv.send {s : State} (h : ChainInv s) {network : Network} {c : Call}
    (hc : c.kind ∈ contractCalls → network = s.payment.sourceNetwork) :
    ChainInv (send s network c) where
  counted n k hk := (successes_send s network c n k).trans (h.counted n k hk)
  home := by
    intro tx ht hk
    rw [Analysis.send, List.mem_append, List.mem_singleton] at ht
    rcases ht with ht | rfl
    · exact h.home tx ht hk
    · exact hc hk

/-- Mining counts the call that was mined, when it succeeded. -/
theorem successes_mine {s : State} {hash : ℕ} {network : Network} {c : Call} {r : Receipt}
    (ht : s.txs[hash]? = some ⟨network, c, none⟩) (n : Network) (k : CallKind)
    (e : Network → OnchainPaymentState) :
    successes { s with txs := s.txs.set hash ⟨network, c, some r⟩, escrow := e } n k =
      successes s n k + if network = n ∧ c.kind = k ∧ r.success = true then 1 else 0 := by
  obtain ⟨hlt, hget⟩ := List.getElem?_eq_some_iff.mp ht
  unfold successes
  rw [List.countP_set hlt, hget]
  by_cases hn : network = n <;> by_cases hk : c.kind = k <;> simp [hn, hk]

/-- Mining keeps the chains as they should be. -/
theorem ChainInv.mine {s s' : State} {m : Mining} (h : ChainInv s) (hm : m.exec s = some s') :
    ChainInv s' := by
  obtain ⟨hash, network, c, r, ht, hg, rfl⟩ := mine_eq_some hm
  refine ⟨fun n k hk => ?_, ?_⟩
  · rw [successes_mine ht, h.counted n k hk]
    by_cases hs : r.success = true
    · by_cases hn : network = n
      · subst hn
        have := happened_effect hk (hg hs)
        simp [hs, this]
      · simp [hs, hn, Ne.symm hn]
    · simp [hs]
  · intro tx htx hk
    rcases List.mem_or_eq_of_mem_set htx with hmem | rfl
    · exact h.home tx hmem hk
    · exact h.home ⟨network, c, none⟩ (List.mem_of_getElem? ht) hk

/-- A call that succeeded is counted. -/
theorem successes_pos {s : State} {hash : ℕ} {k : CallKind} {tx : Tx}
    (ht : s.txs[hash]? = some tx) (hk : tx.call.kind = k) (hm : Mined s hash true) :
    0 < successes s tx.network k := by
  obtain ⟨tx', r, ht', hr, hb⟩ := hm
  rw [ht, Option.some.injEq] at ht'
  subst ht'
  refine List.countP_pos_iff.mpr ⟨tx, List.mem_of_getElem? ht, ?_⟩
  simp [hk, hr, hb]

/-- A call to the contract that succeeded has happened to the escrow. -/
theorem ChainInv.happened {s : State} (h : ChainInv s) {hash : ℕ} {k : CallKind}
    (hk : k ∈ contractCalls) (hs : Sent s k hash) (hm : Mined s hash true) :
    happened k (s.escrow s.payment.sourceNetwork) = true := by
  obtain ⟨tx, ht, rfl⟩ := hs
  have hpos := successes_pos ht rfl hm
  rw [h.home tx (List.mem_of_getElem? ht) hk, h.counted _ _ hk] at hpos
  refine Bool.toNat_eq_one.mp (Nat.le_antisymm (Bool.toNat_le _) hpos)

/-- A `settlePayment` that succeeded has released the escrow. -/
theorem ChainInv.escrow_settled {s : State} (h : ChainInv s) {hash : ℕ}
    (hs : Sent s .settle hash) (hm : Mined s hash true) :
    s.escrow s.payment.sourceNetwork = .settled := by
  simpa [Analysis.happened] using h.happened (by simp [contractCalls]) hs hm

/-- A `failAndRefund` that succeeded has refunded the escrow. -/
theorem ChainInv.escrow_refunded {s : State} (h : ChainInv s) {hash : ℕ}
    (hs : Sent s .refund hash) (hm : Mined s hash true) :
    s.escrow s.payment.sourceNetwork = .refunded := by
  simpa [Analysis.happened] using h.happened (by simp [contractCalls]) hs hm

/-- What has happened to an escrow was sent. -/
theorem ChainInv.sent {s : State} (h : ChainInv s) {n : Network} {k : CallKind}
    (hk : k ∈ contractCalls) (hp : Analysis.happened k (s.escrow n) = true) :
    ∃ hash, Sent s k hash := by
  have hpos : 0 < successes s n k := by
    rw [h.counted n k hk, hp]
    decide
  obtain ⟨tx, hmem, htx⟩ := List.countP_pos_iff.mp hpos
  obtain ⟨hash, ht⟩ := List.getElem?_of_mem hmem
  simp only [Bool.and_eq_true, beq_iff_eq] at htx
  exact ⟨hash, tx, ht, htx.1.2⟩

end SettlementOS.Analysis
