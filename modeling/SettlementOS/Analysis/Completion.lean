import SettlementOS.Analysis.Truth
import SettlementOS.Computation.Progress

/-!
# Requests of which nothing fails

What an attempt comes to when every statement of it is carried out and every transaction it sends is
accepted once it is mined. Meanwhile the chains may mine whatever is still pending, in any order, so
what an attempt knows of the state are facts that mining keeps.
-/

set_option autoImplicit false

namespace SettlementOS.Analysis

open SettlementOS.Computation Service Model Program

variable {env : Env}

/-! ## What the chains do meanwhile -/

/-- The transactions from the `n`-th on are accepted. -/
def Accepts (n : ℕ) : Mining → Prop
  | .mine hash accepted _ _ => n ≤ hash → accepted = true

/-- How many transactions are pending. -/
def pending (s : State) : ℕ := s.txs.countP fun tx => tx.receipt.isNone

/-- Each mining leaves less that is pending. -/
theorem pending_mine {s s' : State} {m : Mining} (h : m.exec s = some s') :
    pending s' < pending s := by
  obtain ⟨hash, network, c, r, ht, -, rfl⟩ := mine_eq_some h
  obtain ⟨hlt, hget⟩ := List.getElem?_eq_some_iff.mp ht
  have hpos : 0 < s.txs.countP fun tx => tx.receipt.isNone :=
    List.countP_pos_iff.mpr ⟨_, List.getElem_mem hlt, by rw [hget]; rfl⟩
  unfold pending
  rw [List.countP_set hlt, hget]
  simp only [Option.isNone_none, Option.isNone_some, Bool.false_eq_true, if_true, if_false]
  omega

/-- A fact that mining keeps. -/
def Settled (n : ℕ) (I : State → Prop) : Prop :=
  ∀ m s s', Accepts n m → I s → Mining.exec m s = some s' → I s'

variable {i n : ℕ} {G : Choice → Prop} {α : Type} {I : State → Prop}

/-- Program `i` returns, and as `Q` says, when its statements go as `G` says. -/
abbrev Completes (env : Env) (i n : ℕ) (G : Choice → Prop) (Q : α → State → Prop) {ε : Type}
    (p : Prog sagaEffects ε α) (s : State) : Prop :=
  Returns (S := sagaService env) i G (Accepts n) Q p s

/-- The choices there are, none of which is a failure. -/
structure Unfailing (G : Choice → Prop) : Prop where
  some : ∃ c, G c
  fails : ∀ c, G c → c.fails = none

/-- A statement that can be answered at once. -/
theorem completes_call (hG : Unfailing G) (hI : Settled n I) {o : Stmt}
    {Q : o.Result → State → Prop} {s : State} (hs : I s)
    (h : ∀ s c, I s → G c → ∃ a s', o.perform c s = some (.ok a, s') ∧ Q a s') :
    Completes env i n G Q (call o) s := by
  refine Returns.stable pending (fun _ _ _ _ => pending_mine) hI (fun s hs => ?_)
    (fun s c a s' hs hc he => ?_) hs
  · obtain ⟨c, hc⟩ := hG.some
    obtain ⟨a, s', hperform, -⟩ := h s c hs hc
    refine .inl ⟨c, (.ok a, s'), hc, ?_⟩
    simp only [Stmt.exec, hG.fails c hc, hperform]
  · obtain ⟨a', s₁, hperform, hQ⟩ := h s c hs hc
    simp only [Stmt.exec, hG.fails c hc, hperform, Option.some.injEq, Prod.mk.injEq] at he
    obtain ⟨rfl, rfl⟩ := he
    exact .ret hQ

/-- A transaction an attempt has sent: it is there, and once it is mined it has succeeded. -/
def Sending (network : Network) (hash : Hash) (s : State) : Prop :=
  ∃ tx : Tx, s.txs[hash]? = some tx ∧ tx.network = network ∧
    tx.call.kind ∈ [CallKind.approve, .payout, .compensation] ∧
    ∀ r, tx.receipt = some r → r.success = true

/-- No mining changes what an attempt has sent. -/
theorem settled_sending {network : Network} {hash : Hash} (hn : n ≤ hash) :
    Settled n (Sending network hash) := by
  rintro ⟨hash', accepted, blockNumber, gasUsed⟩ s s' haccepts ⟨tx, htx, hnet, hkind, hr⟩ hm
  simp only [Mining.exec] at hm
  split at hm
  · rename_i network' c ht
    obtain rfl := Option.some.inj hm
    by_cases hh : hash = hash'
    · subst hh
      obtain rfl := Option.some.inj (htx.symm.trans ht)
      refine ⟨_, List.getElem?_set_self (List.getElem?_eq_some_iff.mp ht).1, hnet, hkind, ?_⟩
      rintro r ⟨rfl⟩
      have hadmitted : ∀ e, c.kind.admitted e = true := by
        intro e
        simp only [List.mem_cons, List.not_mem_nil, or_false] at hkind
        rcases hkind with hk | hk | hk <;> rw [hk] <;> rfl
      simp only [Tx.succeeds, haccepts hn, hadmitted, Bool.and_self]
    · exact ⟨tx, by rw [List.getElem?_set_ne (Ne.symm hh)]; exact htx, hnet, hkind, hr⟩
  · cases hm

/-- Waiting for a transaction the attempt has sent. -/
theorem completes_confirm (hG : Unfailing G) (hI : Settled n I) {network : Network} {hash : Hash}
    (hn : n ≤ hash) {s : State} (hs : I s) (hsending : Sending network hash s) :
    Completes env i n G (fun _ => I) (confirm network hash) s := by
  have hboth : Settled n fun s => I s ∧ Sending network hash s := fun m s s' hm h he =>
    ⟨hI m s s' hm h.1 he, settled_sending hn m s s' hm h.2 he⟩
  refine Returns.bind (Returns.stable pending (fun _ _ _ _ => pending_mine) hboth ?_ ?_
    ⟨hs, hsending⟩)
  · rintro s ⟨-, ⟨network, c, receipt⟩, htx, rfl, -⟩
    cases receipt with
    | none => exact .inr ⟨.mine hash true 0 0, _, fun _ => rfl,
      by simp only [Mining.exec, htx]; rfl⟩
    | some r =>
      obtain ⟨c, hc⟩ := hG.some
      refine .inl ⟨c, (.ok r, s), hc, ?_⟩
      simp only [Stmt.exec, hG.fails c hc, Stmt.perform, State.receipt, htx, if_true]
  · rintro s c a s' ⟨hs, tx, htx, hnet, -, hr⟩ hc he
    simp only [Stmt.exec, hG.fails c hc, Stmt.perform, State.receipt, htx, if_pos hnet] at he
    split at he
    · rename_i r hreceipt
      simp only [Option.some.injEq, Prod.mk.injEq] at he
      obtain ⟨rfl, rfl⟩ := he
      refine .ret ?_
      rw [hr r hreceipt]
      exact .ret hs
    · cases he

/-! ## Where an attempt stands -/

/-- What an attempt knows of the state. -/
structure View where
  payment : Payment
  reservation : Option LiquidityReservation
  credits : List LedgerCredit
  /-- the escrow on the source network -/
  escrow : OnchainPaymentState
  /-- where the escrow may be without anything else that is pending moving it -/
  steady : List OnchainPaymentState
  /-- a transaction it has sent -/
  sent : Option (Network × Hash) := none

/-- What mining leaves alone, whatever is mined. The state was `s₀` when the attempt came. -/
structure Knows (s₀ : State) (v : View) (s : State) : Prop where
  payment : s.payment = v.payment
  reservation : s.reservation = v.reservation
  credits : s.ledgerCredits = v.credits
  known : ∀ network hash r, s₀.receipt network hash = some r → s.receipt network hash = some r
  length : s₀.txs.length ≤ s.txs.length
  sent : ∀ t ∈ v.sent, s₀.txs.length ≤ t.2 ∧ Sending t.1 t.2 s

/-- A call sent on a network leaves the escrow on `source` where it is, at the states given. -/
def Inert (steady : List OnchainPaymentState) (source network : Network) (k : CallKind) : Prop :=
  ∀ e ∈ steady, network = source → k.admitted e = true → k.effect e = e

/-- The state as the attempt knows it. -/
structure Stands (s₀ : State) (v : View) (s : State) : Prop extends Knows s₀ v s where
  escrow : s.escrow s₀.payment.sourceNetwork = v.escrow
  here : v.escrow ∈ v.steady
  calm : ∀ tx ∈ s.txs, tx.receipt = none →
    Inert v.steady s₀.payment.sourceNetwork tx.network tx.call.kind

variable {s₀ s : State} {v : View}

/-- A receipt that is there stays there. -/
theorem receipt_mine {s s' : State} {m : Mining} (h : m.exec s = some s') {network : Network}
    {hash : Hash} {r : Receipt} (hr : s.receipt network hash = some r) :
    s'.receipt network hash = some r := by
  unfold State.receipt at hr ⊢
  split at hr
  · rename_i tx htx
    obtain ⟨tx', htx', hnet, -, hkept⟩ := (evolves_mine h).txs hash tx htx
    rw [htx']
    split at hr
    · rename_i hn
      rw [← hnet] at hn
      exact (if_pos hn).trans (hkept r hr)
    · cases hr
  · cases hr

/-- A receipt stays there when something else is sent. -/
theorem receipt_send {s : State} {network network' : Network} {hash : Hash} {r : Receipt} {c : Call}
    (hr : s.receipt network hash = some r) :
    (send s network' c).receipt network hash = some r := by
  unfold State.receipt at hr ⊢
  split at hr
  · rename_i tx htx
    rw [send, List.getElem?_append_left (List.getElem?_eq_some_iff.mp htx).1, htx]
    exact hr
  · cases hr

/-- What an attempt knows of the state survives the minings. -/
theorem settled_knows : Settled s₀.txs.length (Knows s₀ v) := by
  intro m s s' haccepts h hm
  obtain ⟨hp, hr, hc⟩ := mine_rows hm
  refine ⟨hp ▸ h.payment, hr ▸ h.reservation, hc ▸ h.credits,
    fun network hash r hr => receipt_mine hm (h.known network hash r hr), ?_, fun t ht =>
      ⟨(h.sent t ht).1, settled_sending (h.sent t ht).1 m s s' haccepts (h.sent t ht).2 hm⟩⟩
  obtain ⟨hash, network, c, r, -, -, rfl⟩ := mine_eq_some hm
  rw [List.length_set]
  exact h.length

/-- A calm transaction is mined. -/
theorem escrow_calm {steady : List OnchainPaymentState} {source network : Network} {k : CallKind}
    {e : OnchainPaymentState} {escrow : Network → OnchainPaymentState} {success : Bool}
    (hcalm : Inert steady source network k) (he : e ∈ steady) (hescrow : escrow source = e)
    (hadmitted : success = true → k.admitted (escrow network) = true) :
    (if success = true then Function.update escrow network (k.effect (escrow network))
      else escrow) source = e := by
  by_cases hs : success = true
  · rw [if_pos hs]
    by_cases hn : network = source
    · subst hn
      rw [Function.update_self, hescrow]
      exact hcalm e he rfl (hescrow ▸ hadmitted hs)
    · rw [Function.update_of_ne (Ne.symm hn), hescrow]
  · rw [if_neg hs, hescrow]

/-- Mining moves nothing an attempt knows. -/
theorem settled_stands : Settled s₀.txs.length (Stands s₀ v) := by
  intro m s s' haccepts h hm
  have hknows := settled_knows m s s' haccepts h.toKnows hm
  obtain ⟨hash, network, c, r, ht, hadmitted, rfl⟩ := mine_eq_some hm
  refine ⟨hknows, ?_, h.here, ?_⟩
  · have hcalm := h.calm ⟨network, c, none⟩ (List.mem_of_getElem? ht) rfl
    exact escrow_calm hcalm h.here h.escrow hadmitted
  · intro tx htx hnone
    rcases List.mem_or_eq_of_mem_set htx with htx | rfl
    · exact h.calm tx htx hnone
    · cases hnone

/-- The row is written. -/
theorem Stands.write (hs : Stands s₀ v s) (row : Payment) (events : List AuditRecord) :
    Stands s₀ { v with payment := row } { s with payment := row, auditEvents := events } :=
  ⟨⟨rfl, hs.reservation, hs.credits, hs.known, hs.length, hs.sent⟩, hs.escrow, hs.here, hs.calm⟩

/-! ## Programs on their way -/

variable {ε β : Type}

/-- A program that starts where the attempt stands at `v`, and ends as `P` says. -/
def Leads (env : Env) (i : ℕ) (G : Choice → Prop) (s₀ : State) (v : View)
    (P : α → View → Prop) (p : Prog sagaEffects ε α) : Prop :=
  ∀ s, Stands s₀ v s →
    Completes env i s₀.txs.length G (fun a s' => ∃ v', P a v' ∧ Stands s₀ v' s') p s

variable {P : α → View → Prop} {R : β → View → Prop} {p : Prog sagaEffects ε α}

/-- What a program leads to, the rest goes on from. -/
theorem Leads.bind {f : α → Prog sagaEffects ε β} (h : Leads env i G s₀ v P p)
    (hf : ∀ a v', P a v' → Leads env i G s₀ v' R (f a)) : Leads env i G s₀ v R (p.bind f) :=
  fun s hs => Returns.bind ((h s hs).mono fun a s' ⟨v', hP, hs'⟩ => hf a v' hP s' hs')

/-- A handler is not asked where nothing is thrown. -/
theorem Leads.handle {ε' : Type} {g : ε → Prog sagaEffects ε' α} (h : Leads env i G s₀ v P p) :
    Leads env i G s₀ v P (p.handle g) := fun s hs => (h s hs).handle

/-- What is handed on with an error is not needed where nothing is thrown. -/
theorem Leads.keeping {χ : Type} {x : χ} (h : Leads env i G s₀ v P p) :
    Leads env i G s₀ v P (p.keeping x) := h.handle

/-- Nor is the pardon of an error. -/
theorem Leads.ignoring {ε' : Type} {R : Unit → View → Prop} (h : Leads env i G s₀ v P p)
    (hR : ∀ a v', P a v' → R () v') :
    Leads env i G s₀ v R (p.ignoring : Prog sagaEffects ε' Unit) := fun s hs =>
  ((h s hs).mono (T := fun _ s' => ∃ v', R () v' ∧ Stands s₀ v' s')
    fun a _ ⟨v', hP, hs'⟩ => ⟨v', hR a v' hP, hs'⟩).ignoring

/-- What is to be done finally is done after the value. -/
theorem Leads.andFinally {f : Prog sagaEffects ε Unit} {R : α → View → Prop}
    (h : Leads env i G s₀ v P p)
    (hf : ∀ a v', P a v' → Leads env i G s₀ v' (fun _ => R a) f) :
    Leads env i G s₀ v R (p.andFinally f) := fun s hs =>
  Returns.andFinally ((h s hs).mono fun a s' ⟨v', hP, hs'⟩ => hf a v' hP s' hs')

/-- A program leads to whatever follows from what it leads to. -/
theorem Leads.mono {P' : α → View → Prop} (h : Leads env i G s₀ v P p)
    (hP : ∀ a v', P a v' → P' a v') : Leads env i G s₀ v P' p := fun s hs =>
  (h s hs).mono fun a _ ⟨v', ha, hs'⟩ => ⟨v', hP a v' ha, hs'⟩

/-- A value leads to what holds of it. -/
theorem leads_ret {a : α} (h : P a v) : Leads env i G s₀ v P (.ret a : Prog sagaEffects ε α) :=
  fun _ hs => .ret ⟨v, h, hs⟩

/-- An outcome that is a value leads to it. -/
theorem leads_lift {x : Except Err α} {a : α} (hx : x = .ok a) (h : P a v) :
    Leads env i G s₀ v P (lift x) := by
  rw [hx]
  exact leads_ret h

/-! ## Single statements -/

section Statements

variable (hG : Unfailing G)

include hG

/-- A statement leads to what it answers, where it is answered in every such state. -/
theorem leads_call (o : Stmt) {P : o.Result → View → Prop}
    (h : ∀ s c, Stands s₀ v s → G c →
      ∃ a s', o.perform c s = some (.ok a, s') ∧ ∃ v', P a v' ∧ Stands s₀ v' s') :
    Leads env i G s₀ v P (call o) := fun _ hs =>
  completes_call hG settled_stands hs fun s c hs hc => h s c hs hc

/-- An event is written, and the view stays as it was. -/
theorem leads_audit (action : String) (detail : Detail) (paymentId : String) :
    Leads env i G s₀ v (fun _ v' => v' = v) (audit action detail paymentId) :=
  leads_call hG (.audit _) fun _ _ hs _ => ⟨(), _, rfl, v, rfl,
    ⟨hs.payment, hs.reservation, hs.credits, hs.known, hs.length, hs.sent⟩, hs.escrow, hs.here,
      hs.calm⟩

/-- The row that is read is the one in view. -/
theorem leads_findPayment :
    Leads env i G s₀ v (fun p v' => p = v.payment ∧ v' = v) (call .findPayment) :=
  leads_call hG (.findPayment) fun s _ hs _ => ⟨_, s, rfl, v, ⟨hs.payment, rfl⟩, hs⟩

/-- Columns are written to the row in view. -/
theorem leads_updatePayment (data : PaymentPatch) :
    Leads env i G s₀ v
      (fun p v' => p = v.payment.apply data ∧ v' = { v with payment := v.payment.apply data })
      (call (.updatePayment data)) :=
  leads_call hG (.updatePayment _) fun s _ hs _ => ⟨_, _, rfl, _,
    ⟨congrArg (·.apply data) hs.payment, rfl⟩,
    hs.payment ▸ hs.write (s.payment.apply data) s.auditEvents⟩

/-- A status change the lifecycle has is made. -/
theorem leads_transition {payment : Payment} {next : PaymentStatus} {opts : TransitionOpts}
    (hstatus : payment.status = v.payment.status)
    (hmay : canTransition v.payment.status next = true) :
    Leads env i G s₀ v
      (fun p v' => p = v.payment.apply (transitionData next opts) ∧
        v' = { v with payment := v.payment.apply (transitionData next opts) })
      (transitionStatus payment next opts) := by
  rw [transitionStatus, if_pos (hstatus ▸ hmay)]
  refine Leads.bind (P := fun p v' => p = some (v.payment.apply (transitionData next opts)) ∧
    v' = { v with payment := v.payment.apply (transitionData next opts) })
    (leads_call hG (.transition ..) fun s c hs _ => ?_) ?_
  · have hrow : (Stmt.transition payment.status next opts).perform c s =
        some (.ok (some (v.payment.apply (transitionData next opts))), { s with
          payment := v.payment.apply (transitionData next opts)
          auditEvents := s.auditEvents ++
            [transitionRecord s.payment.id payment.status next opts] }) := by
      rw [Stmt.perform, State.transition, if_pos (hs.payment.symm ▸ hstatus.symm), hs.payment]
    exact ⟨_, _, hrow, _, ⟨rfl, rfl⟩, hs.write _ _⟩
  · rintro _ _ ⟨rfl, rfl⟩
    exact leads_ret ⟨rfl, rfl⟩

/-- The row as an attempt claims it. -/
def Leased (i : ℕ) (p p' : Payment) : Prop :=
  ∃ now, p' = p.apply { executionLeaseId := some (some i), leasedAt := some (some now) }

/-- A free lease is claimed. -/
theorem leads_claimLease {status : PaymentStatus} (hstatus : v.payment.status = status)
    (hfree : v.payment.executionLeaseId = none) :
    Leads env i G s₀ v
      (fun b v' => b = true ∧ ∃ p, Leased i v.payment p ∧ v' = { v with payment := p })
      (call (.claimLease i status)) :=
  leads_call hG (.claimLease ..) fun s c hs _ => by
    have hmay : s.payment.status = status ∧ s.payment.executionLeaseId = none := by
      rw [hs.payment]
      exact ⟨hstatus, hfree⟩
    refine ⟨true, _, if_pos hmay, _, ⟨rfl, _, ⟨c.now, rfl⟩, rfl⟩, ?_⟩
    exact hs.payment ▸ hs.write _ s.auditEvents

/-- Nobody but attempt `i` holds the lease. -/
def Owned (i : ℕ) (p : Payment) : Prop :=
  p.executionLeaseId = some i ∨ p.executionLeaseId = none

/-- The owner's lease is given back. -/
theorem leads_releaseLease (howned : Owned i v.payment) :
    Leads env i G s₀ v (fun _ v' => v'.payment.status = v.payment.status ∧
        v'.payment.executionLeaseId = none) (call (.releaseLease i)) :=
  leads_call hG (.releaseLease _) fun s _ hs _ => by
    by_cases hheld : s.payment.executionLeaseId = some i
    · refine ⟨(), _, if_pos hheld, _, ⟨?_, ?_⟩, hs.write _ s.auditEvents⟩
      · rw [hs.payment]
        rfl
      · rfl
    · exact ⟨(), s, if_neg hheld, v, ⟨rfl, howned.resolve_left (hs.payment ▸ hheld)⟩, hs⟩

/-- The leased section of an attempt, and what it gives back. -/
theorem leads_withExecutionLease {fn : Saga α} {status : PaymentStatus} {paymentId : String}
    (hstatus : v.payment.status = status) (hfree : v.payment.executionLeaseId = none)
    (howned : ∀ a v', P a v' → Owned i v'.payment)
    (hfn : ∀ p, Leased i v.payment p → Leads env i G s₀ { v with payment := p } P fn) :
    Leads env i G s₀ v (fun a v' => ∃ w, P a w ∧ v'.payment.status = w.payment.status ∧
      v'.payment.executionLeaseId = none) (withExecutionLease paymentId i status fn) := by
  refine Leads.bind (leads_claimLease hG hstatus hfree) ?_
  rintro _ _ ⟨rfl, p, hleased, rfl⟩
  refine Leads.andFinally (hfn p hleased) fun a w hP => ?_
  refine Leads.ignoring (leads_releaseLease hG (howned a w hP)) ?_
  rintro - v' ⟨hsame, hnone⟩
  exact ⟨w, hP, hsame, hnone⟩

/-- The status of a reservation that is there is written. -/
theorem leads_updateReservation {r : LiquidityReservation} (status : ReservationStatus)
    (hr : v.reservation = some r) :
    Leads env i G s₀ v
      (fun _ v' => v' = { v with reservation := some { r with status := status } })
      (call (.updateReservation status)) :=
  leads_call hG (.updateReservation _) fun s _ hs _ => by
    have hres : s.reservation = some r := hs.reservation.trans hr
    refine ⟨(), { s with reservation := some { r with status := status } }, ?_, _, rfl,
      ⟨hs.payment, rfl, hs.credits, hs.known, hs.length, hs.sent⟩, hs.escrow, hs.here, hs.calm⟩
    simp only [Stmt.perform, hres]

/-- The credit that is read is the one in view. -/
theorem leads_findLedgerCredit :
    Leads env i G s₀ v (fun c v' => c = v.credits.head? ∧ v' = v) (call .findLedgerCredit) :=
  leads_call hG (.findLedgerCredit) fun s _ hs _ =>
    ⟨_, s, rfl, v, ⟨congrArg List.head? hs.credits, rfl⟩, hs⟩

/-- A credit is created where there is none. -/
theorem leads_createLedgerCredit (credit : LedgerCredit) (hnone : v.credits = []) :
    Leads env i G s₀ v (fun _ v' => v' = { v with credits := [credit] })
      (call (.createLedgerCredit credit)) :=
  leads_call hG (.createLedgerCredit _) fun s _ hs _ => by
    have hempty : s.ledgerCredits.isEmpty = true := by rw [hs.credits, hnone]; rfl
    exact ⟨(), _, if_pos hempty, _, rfl,
      ⟨hs.payment, hs.reservation, rfl, hs.known, hs.length, hs.sent⟩, hs.escrow, hs.here, hs.calm⟩

/-- A receipt that was there when the attempt came. -/
theorem leads_outcome {network : Network} {hash : Hash} {r : Receipt}
    (hr : s₀.receipt network hash = some r) :
    Leads env i G s₀ v (fun o v' => o = outcomeOf (some r) ∧ v' = v)
      (transactionOutcome network hash) := by
  refine Leads.handle (Leads.bind (P := fun a v' => a = some r ∧ v' = v)
    (leads_call hG (.getTransactionReceipt ..) fun s _ hs _ =>
      ⟨some r, s, ?_, v, ⟨rfl, rfl⟩, hs⟩) ?_)
  · simp only [Stmt.perform, hs.known network hash r hr]
  · rintro _ _ ⟨rfl, rfl⟩
    exact leads_ret ⟨rfl, rfl⟩

/-- The escrow on the source network. -/
theorem leads_readEscrow {net : DeployedNetwork}
    (hnet : env.contracts s₀.payment.sourceNetwork = .ok net) :
    Leads env i G s₀ v (fun e v' => e = some v.escrow ∧ v' = v)
      (readEscrow env s₀.payment.sourceNetwork) := by
  refine Leads.handle (Leads.bind (leads_lift (P := fun _ v' => v' = v) hnet rfl) ?_)
  rintro _ w rfl
  refine Leads.bind (P := fun e v' => e = w.escrow ∧ v' = w)
    (leads_call hG (.getPayment _) fun s _ hs _ => ⟨_, s, rfl, w, ⟨hs.escrow, rfl⟩, hs⟩) ?_
  rintro _ _ ⟨rfl, rfl⟩
  exact leads_ret ⟨rfl, rfl⟩

/-- A transaction that leaves the escrow alone is sent. -/
theorem leads_writeContract {network : Network} {c : Call}
    (hkind : c.kind ∈ [CallKind.approve, .payout, .compensation]) :
    Leads env i G s₀ v (fun hash v' => v' = { v with sent := some (network, hash) })
      (call (.writeContract network c)) :=
  leads_call hG (.writeContract ..) fun s _ hs _ => by
    have hcalm : ∀ e, c.kind.effect e = e := by
      intro e
      simp only [List.mem_cons, List.not_mem_nil, or_false] at hkind
      rcases hkind with hk | hk | hk <;> rw [hk] <;> rfl
    refine ⟨_, _, rfl, _, rfl, ⟨hs.payment, hs.reservation, hs.credits, ?_, ?_, ?_⟩, hs.escrow,
      hs.here, ?_⟩
    · exact fun network' hash r hr => receipt_send (hs.known network' hash r hr)
    · rw [List.length_append]
      exact Nat.le_add_right_of_le hs.length
    · rintro _ ⟨rfl⟩
      exact ⟨hs.length, _, List.getElem?_concat_length, rfl, hkind, fun r hr => nomatch hr⟩
    · intro tx htx hnone
      rcases List.mem_append.mp htx with htx | htx
      · exact hs.calm tx htx hnone
      · rw [List.mem_singleton.mp htx]
        exact fun e _ _ _ => hcalm e

/-- Waiting for it. -/
theorem leads_confirm {network : Network} {hash : Hash} (hsent : v.sent = some (network, hash)) :
    Leads env i G s₀ v (fun _ v' => v' = v) (confirm network hash) := fun s hs => by
  obtain ⟨hn, hsending⟩ := hs.sent (network, hash) hsent
  exact (completes_confirm hG settled_stands hn hs hsending).mono fun _ _ hs' => ⟨v, rfl, hs'⟩

end Statements

end SettlementOS.Analysis
