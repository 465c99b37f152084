import SettlementOS.Analysis.Priced
import SettlementOS.Results.Terminal

/-!
# The amounts agree

A payment that reached `SETTLED`, by whichever path, was credited, reserved, settled and paid out
at the amount of its selected route, exactly. A compensation returns what was escrowed, to the
wallet it was taken from.
-/

set_option autoImplicit false

namespace SettlementOS.Results

open SettlementOS.Computation Service Model Program Analysis

variable {env : Env} {new : NewPayment}

/-! ## Everything performed is faithful to the row -/

/-- The selected route starts where the payment does. -/
theorem Reachable.home {c : Config env} (h : Reachable env new c) (route : RouteOption)
    (hroute : selectedRoute c.world.state.payment = .ok route) :
    route.sourceNetwork = c.world.state.payment.sourceNetwork := by
  obtain ⟨routes, hroutes, hmem⟩ := selectedRoute_mem hroute
  exact h.inv.truth.routes routes hroutes route hmem

/-- What any request has performed agrees with the payment as it is now. -/
theorem Reachable.performed {c : Config env} (h : Reachable env new c) :
    ∀ e ∈ c.world.history, Faithful env c.world.state.payment ⟨e.stmt, e.answer⟩ := by
  have hallowed : ∀ {c₁ : Config env}, Lawful (S := sagaService env)
      (fun _ _ => faithful env c.world.state.payment) (fun _ _ _ _ => True) (fun _ _ _ _ => True)
      c₁ → ∀ e ∈ c₁.world.history, Faithful env c.world.state.payment ⟨e.stmt, e.answer⟩ := by
    intro c₁ hlawful e he
    obtain ⟨l, past, hhistory⟩ := List.append_of_mem he
    obtain ⟨t, -, hallows⟩ := hlawful.allows hhistory
    exact hallows
  refine hallowed (Config.Reaches.keeps_toward ?_ (request_faithful h.home) h)
  intro i o ch c₁ c₂ a h₁ hlawful he _ h₂ hto r
  refine ⟨fun row hrow => ?_, fun row hrow => ?_⟩
  · obtain rfl := rowOf_exec he hrow
    have hevolves := Reachable.evolves h₂ hto
    exact ⟨hevolves.identity.symm, fun hrank => (hevolves.quote hrank).symm⟩
  · obtain rfl := readRow_exec he hrow
    exact priced_of_faithful h₁ (hallowed hlawful)

/-- Every transaction that moves money moves what is due. -/
theorem Reachable.movesDue {c : Config env} (h : Reachable env new c) {tx : Tx}
    (htx : tx ∈ c.world.state.txs) : MovesDue env c.world.state.payment tx.network tx.call := by
  obtain ⟨hash, hhash⟩ := List.getElem?_of_mem htx
  obtain ⟨⟨i, o, r⟩, he, hsends⟩ := (recorded h).sent hash tx hhash
  have hfaithful := h.performed _ he
  cases o with
  | writeContract network call =>
    cases r with
    | ok hash' =>
      simp only [sends, Option.some.injEq, Prod.mk.injEq] at hsends
      obtain ⟨rfl, rfl, -⟩ := hsends
      exact hfaithful
    | error e => cases hsends
  | _ => cases r <;> cases hsends

/-- A call that has happened to the escrow is one that succeeded. -/
theorem exists_success {s : State} (h : ChainInv s) {k : CallKind} (hk : k ∈ contractCalls)
    {n : Network} (hn : happened k (s.escrow n) = true) :
    ∃ tx ∈ s.txs, tx.network = n ∧ tx.call.kind = k ∧ tx.receipt.any (·.success) = true := by
  have hpos : 0 < successes s n k := by
    rw [h.counted n k hk, hn]
    decide
  obtain ⟨tx, hmem, htx⟩ := List.countP_pos_iff.mp hpos
  simp only [Bool.and_eq_true, beq_iff_eq] at htx
  exact ⟨tx, hmem, htx.1.1, htx.1.2, htx.2⟩

/-! ## Statement -/

/-- The amounts of a payment that was settled: the credit, the row, the reservation, what was
settled and what was paid out are all the amount of the selected route, in exact units. -/
structure AmountsAgree (env : Env) (s : State) (route : RouteOption) (token : Token)
    (units : ℕ) : Prop where
  selected : selectedRoute s.payment = .ok route
  credited : ∃ credit, s.ledgerCredits = [credit] ∧
    credit.amount = route.estimatedDestinationAmount
  onRow : s.payment.destinationAmount = some route.estimatedDestinationAmount
  reserved : ∃ row, s.reservation = some row ∧ row.amount = route.estimatedDestinationAmount
  deployed : DestinationToken env s.payment route token
  exact : ExactUnits route.estimatedDestinationAmount token.decimals units
  settled : ∃ tx ∈ s.txs, tx.call.kind = .settle ∧ tx.receipt.any (·.success) = true
  settledUnits : ∀ tx ∈ s.txs, ∀ id routeId releaseTo amount asset,
    tx.call = .settlePayment id routeId releaseTo amount asset → amount = units
  paid : CrossChain s.payment → ∃ tx ∈ s.txs, tx.call.kind = .payout ∧
    tx.receipt.any (·.success) = true
  paidUnits : ∀ tx ∈ s.txs, ∀ address recipient amount,
    tx.call = .transfer .destinationPayout address recipient amount →
      tx.network = route.destinationNetwork ∧ address = token.address ∧ amount = units

/-- A transfer that returns what was escrowed: some initiation of the escrow succeeded, and every
one took these units of this token from this wallet, on the source network. -/
structure ReturnsEscrow (s : State) (network : Network) (address wallet : String)
    (units : ℕ) : Prop where
  home : network = s.payment.sourceNetwork
  escrowed : ∃ tx ∈ s.txs, tx.network = network ∧ tx.call.kind = .initiate ∧
    tx.receipt.any (·.success) = true
  taken : ∀ tx ∈ s.txs, ∀ id sender recipient asset amount source destination,
    tx.call = .initiatePayment id sender recipient asset amount source destination →
      tx.network = network ∧ sender = wallet ∧ asset = address ∧ amount = units

/-! ## Settlement -/

/-- A settlement that was sent has terms. -/
theorem Reachable.terms_of_settlement {c : Config env} (h : Reachable env new c) {tx : Tx}
    (htx : tx ∈ c.world.state.txs) (hkind : tx.call.kind = .settle) :
    ∃ route token units, DestinationTerms env c.world.state.payment route token units := by
  have hdue := h.movesDue htx
  obtain ⟨network, call, receipt⟩ := tx
  cases call with
  | settlePayment id routeId releaseTo amount asset =>
    obtain ⟨route, token, hterms⟩ := hdue
    exact ⟨route, token, amount, hterms⟩
  | transfer leg token recipient amount => cases leg <;> cases hkind
  | _ => cases hkind

/-- An amount that was selected is the one of the terms. -/
theorem selected_eq {q : Payment} {route : RouteOption} {token : Token} {units : ℕ}
    (hterms : DestinationTerms env q route token units) {amount : String}
    (h : Selected q amount) : amount = route.estimatedDestinationAmount := by
  obtain ⟨route', hroute', rfl⟩ := h
  rw [hterms.selected, Except.ok.injEq] at hroute'
  exact hroute' ▸ rfl

/-- The one credit is of the selected amount. -/
theorem Reachable.credited {c : Config env} (h : Reachable env new c)
    (hne : c.world.state.ledgerCredits ≠ []) :
    ∃ credit, c.world.state.ledgerCredits = [credit] ∧
      Selected c.world.state.payment credit.amount := by
  obtain ⟨credit, rest, hcredits⟩ := List.exists_cons_of_ne_nil hne
  have hone := h.inv.truth.oneCredit
  rw [hcredits, List.length_cons] at hone
  have hrest : rest = [] := List.length_eq_zero_iff.mp (by omega)
  subst hrest
  obtain ⟨⟨i, o, r⟩, he, hstmt⟩ := (written h).credits credit
    (hcredits ▸ List.mem_singleton_self _)
  cases hstmt
  exact ⟨credit, hcredits, h.performed _ he⟩

/-- A payment that was put in escrow has a reservation of the selected amount. -/
theorem Reachable.reservedAmount {c : Config env} (h : Reachable env new c) {n : Network}
    (hescrow : c.world.state.escrow n ≠ .none) :
    ∃ row, c.world.state.reservation = some row ∧
      Selected c.world.state.payment row.amount := by
  obtain ⟨row, hrow⟩ := Option.ne_none_iff_exists'.mp
    (reservation_of_initiated h h.inv.chain (n := n) hescrow)
  obtain ⟨⟨i, o, r⟩, he, leaseId, hstmt⟩ := (written h).reservation row hrow
  cases hstmt
  exact ⟨row, hrow, h.performed _ he⟩

/-- A payment that is settled. -/
theorem amountsAgree_of_settled {c : Config env} (h : Reachable env new c)
    (hs : c.world.state.payment.status = .settled) :
    ∃ route token units, AmountsAgree env c.world.state route token units := by
  have htruth := h.inv.truth
  obtain ⟨hcredited, hcross⟩ := htruth.settledEnd hs
  have hescrow := htruth.released (by rw [hs]; decide)
  obtain ⟨tx, hmem, -, hkind, hsuccess⟩ := exists_success h.inv.chain (k := .settle) (by decide)
    (n := c.world.state.payment.sourceNetwork) (by rw [hescrow]; rfl)
  -- the terms are those of the settlement that succeeded
  obtain ⟨route, token, units, hterms⟩ := h.terms_of_settlement hmem hkind
  refine ⟨route, token, units, ?_⟩
  constructor
  case selected => exact hterms.selected
  case deployed => exact hterms.deployed
  case exact => exact hterms.exact
  case settled => exact ⟨tx, hmem, hkind, hsuccess⟩
  case credited =>
    obtain ⟨credit, hcredits, hselected⟩ := h.credited hcredited
    exact ⟨credit, hcredits, selected_eq hterms hselected⟩
  case onRow =>
    obtain ⟨amount, hamount, hselected⟩ := priced_of_faithful h h.performed (by rw [hs]; decide)
    rw [hamount, selected_eq hterms hselected]
  case reserved =>
    obtain ⟨row, hrow, hselected⟩ :=
      h.reservedAmount (n := c.world.state.payment.sourceNetwork) (by rw [hescrow]; decide)
    exact ⟨row, hrow, selected_eq hterms hselected⟩
  case settledUnits =>
    rintro ⟨network, call, receipt⟩ htx id routeId releaseTo amount asset rfl
    obtain ⟨route', token', hterms'⟩ := h.movesDue htx
    exact (hterms.unique hterms').2.2
  case paid =>
    intro hx
    obtain ⟨hash, hhash⟩ := hcross hx
    obtain ⟨tx', htx', hkind'⟩ := htruth.payoutHash hash hhash
    obtain ⟨tx'', receipt, htx'', hreceipt, hok⟩ := htruth.paid hcredited hash ⟨tx', htx', hkind'⟩
    rw [htx', Option.some.injEq] at htx''
    subst htx''
    exact ⟨tx', List.mem_of_getElem? htx', hkind', by simp [hreceipt, hok]⟩
  case paidUnits =>
    rintro ⟨network, call, receipt⟩ htx address recipient amount rfl
    obtain ⟨route', token', hterms', hnetwork, haddress⟩ := h.movesDue htx
    obtain ⟨rfl, rfl, rfl⟩ := hterms.unique hterms'
    exact ⟨hnetwork, haddress, rfl⟩

/-- A compensation. -/
theorem returnsEscrow_of_compensation {c : Config env} (h : Reachable env new c) {tx : Tx}
    (htx : tx ∈ c.world.state.txs) {address recipient : String} {units : ℕ}
    (hcall : tx.call = .transfer .compensation address recipient units) :
    ReturnsEscrow c.world.state tx.network address recipient units := by
  have hdue := h.movesDue htx
  rw [hcall] at hdue
  have hterms : SourceTerms env c.world.state.payment tx.network recipient address units := hdue
  obtain ⟨hash, hhash⟩ := List.getElem?_of_mem htx
  have hkind := h.inv.truth.kinds .compensation hash ⟨tx, hhash, by rw [hcall]; rfl⟩
  have hescrow : c.world.state.escrow c.world.state.payment.sourceNetwork = .settled := by
    apply h.inv.truth.released
    revert hkind
    generalize c.world.state.payment.status = s
    cases s <;> decide
  constructor
  case home => exact hterms.network
  case escrowed =>
    obtain ⟨tx₀, hmem, hnet, hinit, hsuccess⟩ := exists_success h.inv.chain (k := .initiate)
      (by decide) (n := c.world.state.payment.sourceNetwork) (by rw [hescrow]; rfl)
    exact ⟨tx₀, hmem, hnet.trans hterms.network.symm, hinit, hsuccess⟩
  case taken =>
    rintro ⟨network, call, receipt⟩ htx₀ id sender rec asset amount source destination rfl
    have hterms₀ : SourceTerms env c.world.state.payment network sender asset amount :=
      h.movesDue htx₀
    exact hterms.unique hterms₀

/-- **The amounts agree.** A payment at `SETTLED` was credited, reserved, settled and paid out at
the amount of its selected route, in exact units; and every compensation returns what was
escrowed to the wallet it was taken from. -/
theorem amounts_agree {c : Config env} (h : Reachable env new c) :
    (c.world.state.payment.status = .settled →
      ∃ route token units, AmountsAgree env c.world.state route token units) ∧
    ∀ tx ∈ c.world.state.txs, ∀ address recipient units,
      tx.call = .transfer .compensation address recipient units →
        ReturnsEscrow c.world.state tx.network address recipient units :=
  ⟨amountsAgree_of_settled h, fun _ htx _ _ _ hcall => returnsEscrow_of_compensation h htx hcall⟩

/-- The sample payment, completed. -/
theorem amounts_agree_completed : ∃ c : Config sampleEnv,
    Reachable sampleEnv samplePayment c ∧ c.world.state.payment.status = .settled ∧
      ∃ route token units, AmountsAgree sampleEnv c.world.state route token units := by
  obtain ⟨c, hc, hs⟩ := reached sampleEnv samplePayment completedRun
    (P := fun c => c.world.state.payment.status == .settled) (by decide +kernel)
  exact ⟨c, hc, by simpa using hs, (amounts_agree hc).1 (by simpa using hs)⟩

end SettlementOS.Results
