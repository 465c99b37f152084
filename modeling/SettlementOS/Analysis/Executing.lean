import SettlementOS.Analysis.Execution
import SettlementOS.Analysis.Restoring
import SettlementOS.Model.Units

/-!
# Executions of which nothing fails

An execution moves the escrow twice, and waits for each of the two transactions right after it has
sent it. In between, the escrow is where it was or where the call leaves it.
-/

set_option autoImplicit false

namespace SettlementOS.Analysis

open SettlementOS.Computation Service Model Program

variable {env : Env} {i : ℕ} {G : Choice → Prop} {s₀ s : State} {v : View}

/-! ## A transaction that moves the escrow -/

/-- The call `c` is out, which moves the escrow. -/
structure Crossing (s₀ : State) (v : View) (c : Call) (hash : Hash) (s : State) : Prop
    extends Knows s₀ v s where
  later : s₀.txs.length ≤ hash
  own : (s.txs[hash]? = some ⟨s₀.payment.sourceNetwork, c, none⟩ ∧
      s.escrow s₀.payment.sourceNetwork = v.escrow) ∨
    ∃ r, s.txs[hash]? = some ⟨s₀.payment.sourceNetwork, c, some r⟩ ∧ r.success = true ∧
      s.escrow s₀.payment.sourceNetwork = c.kind.effect v.escrow
  calm : ∀ (j : ℕ) (tx : Tx), j ≠ hash → s.txs[j]? = some tx → tx.receipt = none →
    Inert v.steady s₀.payment.sourceNetwork tx.network tx.call.kind

/-- A call the contract admits, from one place where nothing else moves the escrow to another. -/
structure Crosses (v : View) (c : Call) : Prop where
  admitted : c.kind.admitted v.escrow = true
  here : v.escrow ∈ v.steady
  there : c.kind.effect v.escrow ∈ v.steady

variable {c : Call} {hash : Hash}

/-- A call that is out stays out, or is mined as it has to be. -/
theorem settled_crossing (hc : Crosses v c) :
    Settled s₀.txs.length (Crossing s₀ v c hash) := by
  rintro ⟨hash', accepted, blockNumber, gasUsed⟩ s s' haccepts h hm
  have hknows := settled_knows _ s s' haccepts h.toKnows hm
  simp only [Mining.exec] at hm
  split at hm
  · rename_i network c' ht
    obtain rfl := Option.some.inj hm
    obtain ⟨hlt, hget⟩ := List.getElem?_eq_some_iff.mp ht
    by_cases hh : hash = hash'
    · -- the call itself is mined
      subst hh
      rcases h.own with ⟨hown, hescrow⟩ | ⟨r, hown, -⟩
      · obtain ⟨rfl, rfl⟩ : s₀.payment.sourceNetwork = network ∧ c = c' := by
          simpa using hown.symm.trans ht
        have hsucceeds : Tx.succeeds ⟨s₀.payment.sourceNetwork, c, none⟩ accepted s = true := by
          simp only [Tx.succeeds, haccepts h.later, hescrow, hc.admitted, Bool.and_self]
        refine ⟨hknows, h.later, .inr ⟨⟨true, blockNumber, gasUsed⟩, ?_, rfl, ?_⟩, ?_⟩
        · rw [hsucceeds]
          exact List.getElem?_set_self hlt
        · simp only [hsucceeds, if_true, Function.update_self, hescrow]
        · intro j tx hj htx
          rw [List.getElem?_set_ne (Ne.symm hj)] at htx
          exact h.calm j tx hj htx
      · cases hown.symm.trans ht
    · have hcalm := h.calm hash' _ (Ne.symm hh) ht rfl
      have hadmitted : Tx.succeeds ⟨network, c', none⟩ accepted s = true →
          c'.kind.admitted (s.escrow network) = true := fun hs => (Bool.and_eq_true_iff.mp hs).2
      refine ⟨hknows, h.later, ?_, ?_⟩
      · simp only [List.getElem?_set_ne (Ne.symm hh)]
        rcases h.own with ⟨hown, hescrow⟩ | ⟨r, hown, hr, hescrow⟩
        · exact .inl ⟨hown, escrow_calm hcalm hc.here hescrow hadmitted⟩
        · exact .inr ⟨r, hown, hr, escrow_calm hcalm hc.there hescrow hadmitted⟩
      · intro j tx hj htx hnone
        by_cases hj' : j = hash'
        · subst hj'
          rw [List.getElem?_set_self hlt] at htx
          cases htx
          cases hnone
        · rw [List.getElem?_set_ne (Ne.symm hj')] at htx
          exact h.calm j tx hj htx hnone
  · cases hm

/-- The call has been mined. -/
theorem Crossing.stands (h : Crossing s₀ v c hash s) (hc : Crosses v c) {r : Receipt}
    (hr : s.receipt s₀.payment.sourceNetwork hash = some r) :
    r.success = true ∧ Stands s₀ { v with escrow := c.kind.effect v.escrow } s := by
  unfold State.receipt at hr
  rcases h.own with ⟨hown, -⟩ | ⟨r', hown, hsuccess, hescrow⟩
  · simp only [hown, if_true] at hr
    cases hr
  · simp only [hown, if_true, Option.some.injEq] at hr
    obtain rfl := hr
    refine ⟨hsuccess, ⟨⟨h.payment, h.reservation, h.credits, h.known, h.length, h.sent⟩, hescrow,
      hc.there, fun tx htx hnone => ?_⟩⟩
    obtain ⟨j, hj⟩ := List.getElem?_of_mem htx
    refine h.calm j tx ?_ hj hnone
    rintro rfl
    rw [hown, Option.some.injEq] at hj
    rw [← hj] at hnone
    cases hnone

section

variable (hG : Unfailing G)

include hG

/-- Waiting for it. -/
theorem completes_crossing (hc : Crosses v c) (hs : Crossing s₀ v c hash s) :
    Completes env i s₀.txs.length G
      (fun _ => Stands s₀ { v with escrow := c.kind.effect v.escrow })
      (confirm s₀.payment.sourceNetwork hash) s := by
  refine Returns.bind
    (Returns.stable pending (fun _ _ _ _ => pending_mine) (settled_crossing hc) ?_ ?_
    hs)
  · intro s hs
    rcases hs.own with ⟨hown, -⟩ | ⟨r, hown, -, -⟩
    · exact .inr ⟨.mine hash true 0 0, _, fun _ => rfl, by simp only [Mining.exec, hown]; rfl⟩
    · obtain ⟨ch, hch⟩ := hG.some
      refine .inl ⟨ch, (.ok r, s), hch, ?_⟩
      simp only [Stmt.exec, hG.fails ch hch, Stmt.perform, State.receipt, hown, if_true]
  · intro s ch a s' hs hch he
    simp only [Stmt.exec, hG.fails ch hch, Stmt.perform] at he
    split at he
    · rename_i r hreceipt
      simp only [Option.some.injEq, Prod.mk.injEq] at he
      obtain ⟨rfl, rfl⟩ := he
      obtain ⟨hsuccess, hstands⟩ := hs.stands hc hreceipt
      refine .ret ?_
      rw [hsuccess]
      exact .ret hstands
    · cases he

/-- Sending it. -/
theorem completes_send {net : DeployedNetwork} {isTransient : String → Bool} {retries : ℕ}
    (hnet : env.contracts s₀.payment.sourceNetwork = .ok net) (hs : Stands s₀ v s) :
    Completes env i s₀.txs.length G (fun hash => Crossing s₀ v c hash)
      (retryOnReplicaLag ((lift (env.contracts s₀.payment.sourceNetwork)).bind fun _ =>
        call (.writeContract s₀.payment.sourceNetwork c)) isTransient retries) s := by
  have honce : Completes env i s₀.txs.length G (fun hash => Crossing s₀ v c hash)
      ((lift (env.contracts s₀.payment.sourceNetwork)).bind fun _ =>
        call (.writeContract s₀.payment.sourceNetwork c)) s := by
    refine Returns.bind (Returns.ofExcept hnet (completes_call
      (o := .writeContract s₀.payment.sourceNetwork c) hG settled_stands hs ?_))
    intro s ch hs hch
    refine ⟨_, _, rfl, ⟨hs.payment, hs.reservation, hs.credits,
      fun network hash r hr => receipt_send (hs.known network hash r hr), ?_, ?_⟩,
        hs.length, ?_, ?_⟩
    · rw [List.length_append]
      exact Nat.le_add_right_of_le hs.length
    · intro t ht
      obtain ⟨hlate, tx, htx, hrest⟩ := hs.sent t ht
      refine ⟨hlate, tx, ?_, hrest⟩
      rw [List.getElem?_append_left (List.getElem?_eq_some_iff.mp htx).1]
      exact htx
    · exact .inl ⟨List.getElem?_concat_length, hs.escrow⟩
    · intro j tx hj htx hnone
      refine hs.calm tx ?_ hnone
      rw [List.getElem?_append] at htx
      split at htx
      · exact List.mem_of_getElem? htx
      · rename_i hlt
        obtain ⟨hlt', -⟩ := List.getElem?_eq_some_iff.mp htx
        simp only [List.length_singleton] at hlt'
        omega
  cases retries with
  | zero => exact honce
  | succ retries => exact honce.handle

/-- A call of the operator's that moves the escrow. -/
theorem leads_operatorWrite (hc : Crosses v c)
    (haccounts : ∃ accounts, env.accountsFor s₀.payment.sourceNetwork = .ok accounts)
    (hretries : ∃ retries, env.replicaLagRetries s₀.payment.sourceNetwork = .ok retries)
    (hnet : ∃ net, env.contracts s₀.payment.sourceNetwork = .ok net) :
    Leads env i G s₀ v (fun _ v' => v' = { v with escrow := c.kind.effect v.escrow })
      (operatorWrite env s₀.payment.sourceNetwork c) := by
  obtain ⟨accounts, haccounts⟩ := haccounts
  obtain ⟨retries, hretries⟩ := hretries
  obtain ⟨net, hnet⟩ := hnet
  refine Leads.bind (leads_lift (P := fun _ v' => v' = v) haccounts rfl) ?_
  rintro - w rfl
  refine Leads.bind (leads_lift (P := fun a v' => a = retries ∧ v' = w) hretries ⟨rfl, rfl⟩) ?_
  rintro _ _ ⟨rfl, rfl⟩ s hs
  refine Returns.bind ((completes_send hG hnet hs).mono fun hash s hs => ?_)
  exact (completes_crossing hG hc hs).mono fun _ _ hs => ⟨_, rfl, hs⟩

end

/-! ## What an execution is equipped with -/

/-- What the deployments and the operator's configuration provide for a plan. -/
structure Equipped (env : Env) (plan : Plan) (units : ℕ) : Prop where
  /-- the token is on the source network -/
  sourceToken : plan.sourceToken ≠ none
  /-- the network is in the registry -/
  registered : ∃ info, env.networkInfo plan.sourceNet = .ok info
  /-- the operator holds a wallet of the sender's there -/
  wallet : ∃ accounts wallet, env.accountsFor plan.sourceNet = .ok accounts ∧
    accounts.entityWallets env.sender.externalId = some wallet
  /-- the token is on the destination network, which has as many units of it as are due -/
  destination : ∃ net token, env.deployments.networks plan.destNet = some net ∧
    net.tokens plan.destAsset.symbol = some token ∧
    destinationUnits plan.destAmount token.decimals = .ok units
  /-- a payout needs the operator's accounts there -/
  accounts : plan.isCrossChain = true → ∃ accounts, env.accountsFor plan.destNet = .ok accounts

/-- How often a write is tried again is configured. -/
theorem Equipped.retries {plan : Plan} {units : ℕ} (h : Equipped env plan units) :
    ∃ retries, env.replicaLagRetries plan.sourceNet = .ok retries := by
  obtain ⟨info, hinfo⟩ := h.registered
  unfold Env.replicaLagRetries
  split
  · exact ⟨0, rfl⟩
  · exact ⟨_, by rw [hinfo]; rfl⟩

/-- Nothing fails, and the treasury has what is due. -/
structure Liquid (units : ℕ) (c : Choice) : Prop where
  fails : c.fails = none
  free : units ≤ c.treasury.free

/-- With enough in the treasury nothing fails. -/
theorem unfailing_liquid (units : ℕ) : Unfailing (Liquid units) :=
  ⟨⟨{ treasury := ⟨units, 0, units⟩ }, rfl, Nat.le_refl _⟩, fun _ hc => hc.fails⟩

/-- An execution under way: its local row and the stored one. -/
structure Proceeding (i : ℕ) (amount : String) (status : PaymentStatus) (p : Payment) (v : View) :
    Prop where
  row : p.status = status
  stored : v.payment.status = status
  same : p.amount = amount
  kept : v.payment.amount = amount
  held : v.payment.executionLeaseId = some i

/-- What an execution leaves alone for most of its way. -/
structure Beside (v v' : View) : Prop where
  reservation : v'.reservation = v.reservation
  credits : v'.credits = v.credits
  steady : v'.steady = v.steady

section

variable {units : ℕ} {plan : Plan} {p : Payment} {amount : String} {status : PaymentStatus}

/-- The payment goes on to the next status, the lease with it. -/
theorem leads_advance (hG : Unfailing G) {next : PaymentStatus} {data : PaymentPatch}
    {detail : Detail} (h : Proceeding i amount status p v) (hmay : canTransition status next = true)
    (hnext : next ∉ leaseReleaseStates) (hplain : data.status = none)
    (hlease : data.executionLeaseId = none) :
    Leads env i G s₀ v
      (fun p' v' => Proceeding i amount next p' v' ∧ ∃ row, v' = { v with payment := row })
      (setStatus p next data detail) := by
  refine (leads_transition hG (h.row.trans h.stored.symm) (h.stored.symm ▸ hmay)).mono ?_
  rintro _ _ ⟨rfl, rfl⟩
  have hstatus := apply_status v.payment next { data := data, detail := detail } hplain
  refine ⟨⟨hstatus, hstatus, h.kept, h.kept, ?_⟩, _, rfl⟩
  rw [apply_executionLeaseId _ _ _ hlease, if_neg hnext]
  exact h.held

/-- Where a plan's token is, its network is too. -/
theorem Equipped.source {q : Payment} (h : Equipped env plan units) (hmade : Made env q plan) :
    ∃ net token, env.deployments.networks plan.sourceNet = some net ∧
      net.tokens plan.sourceAsset.symbol = some token ∧ plan.sourceToken = some token := by
  obtain ⟨net, hnet, htoken⟩ := hmade.contracts
  obtain ⟨token, hsome⟩ := Option.ne_none_iff_exists'.mp h.sourceToken
  refine ⟨net, token, ?_, htoken.symm.trans hsome, hsome⟩
  unfold Env.contracts at hnet
  split at hnet
  · rename_i net' hnet'
    cases hnet
    exact hnet'
  · cases hnet

/-- A network that is deployed has its contracts. -/
theorem contracts_of_some {network : Network} {net : DeployedNetwork}
    (h : env.deployments.networks network = some net) : env.contracts network = .ok net := by
  rw [Env.contracts, h]

/-! ## The escrow -/

/-- The sender's allowance: it is enough already, or another one is sent and mined. -/
theorem leads_grantAllowance (hG : Unfailing G) {q : Payment} {amountUnits : ℕ}
    (h : Equipped env plan units) (hmade : Made env q plan) :
    Leads env i G s₀ v (fun _ v' => ∃ sent, v' = { v with sent := sent })
      (grantAllowance env plan amountUnits p) := by
  obtain ⟨net, token, hnet, htoken, -⟩ := h.source hmade
  obtain ⟨accounts, wallet, haccounts, hwallet⟩ := h.wallet
  have hcontracts : env.networkContracts plan.sourceNet = .ok net := by
    rw [Env.networkContracts, hnet]
  have htokenOn : tokenOn net plan.sourceNet plan.sourceAsset.symbol = .ok token := by
    rw [tokenOn, htoken]
  unfold grantAllowance ensureSenderAllowance
  refine Leads.bind (P := fun _ v' => ∃ sent, v' = { v with sent := sent }) ?_ ?_
  · refine Leads.bind (leads_lift (P := fun a v' => a = net ∧ v' = v) hcontracts ⟨rfl, rfl⟩) ?_
    rintro _ _ ⟨rfl, rfl⟩
    refine Leads.bind (leads_lift (P := fun a v' => a = token ∧ v' = _) htokenOn ⟨rfl, rfl⟩) ?_
    rintro _ _ ⟨rfl, rfl⟩
    refine Leads.bind (leads_lift (P := fun a v' => a = accounts ∧ v' = _) haccounts ⟨rfl, rfl⟩) ?_
    rintro _ w ⟨rfl, rfl⟩
    simp only [hwallet]
    refine Leads.bind (P := fun _ v' => v' = w) (leads_call hG (.allowance ..)
      fun s _ hs _ => ⟨_, s, rfl, w, rfl, hs⟩) ?_
    rintro allowed _ rfl
    by_cases henough : amountUnits ≤ allowed
    · simp only [henough, if_true]
      exact leads_ret ⟨_, rfl⟩
    · simp only [henough, if_false]
      refine Leads.bind (leads_writeContract hG (by simp [Call.kind])) ?_
      rintro hash _ rfl
      refine Leads.bind (leads_confirm hG rfl) ?_
      rintro tx _ rfl
      exact leads_ret ⟨_, rfl⟩
  · rintro granted _ ⟨sent, rfl⟩
    cases granted with
    | none => exact leads_ret ⟨sent, rfl⟩
    | some tx =>
      refine Leads.bind (leads_lift (P := fun _ v' => v' = _) (contracts_of_some hnet) rfl) ?_
      rintro _ _ rfl
      refine (leads_audit hG _ _ _).mono ?_
      rintro _ _ rfl
      exact ⟨sent, rfl⟩

/-- The escrow leg: the allowance, the escrow, and the payment is at `SUBMITTED_ONCHAIN`. -/
theorem leads_escrowLeg (hG : Unfailing G) {q : Payment} {pid : String} {amountUnits : ℕ}
    (h : Equipped env plan units) (hmade : Made env q plan)
    (hhome : plan.sourceNet = s₀.payment.sourceNetwork)
    (hrun : Proceeding i amount .liquidityReserved p v) (hescrow : v.escrow = .none)
    (hsteady : v.steady = [.none, .initiated, .settled]) :
    Leads env i G s₀ v (fun r v' => Proceeding i amount .submittedOnchain r.1 v' ∧
        v'.escrow = .initiated ∧ Beside v v')
      (escrowLeg env plan pid amountUnits p) := by
  obtain ⟨net, token, hnet, -, htoken⟩ := h.source hmade
  obtain ⟨accounts, wallet, haccounts, -⟩ := h.wallet
  have hretries := h.retries
  unfold escrowLeg
  refine Leads.bind (leads_grantAllowance hG h hmade).keeping ?_
  rintro _ _ ⟨sent, rfl⟩
  refine Leads.bind (leads_lift (P := fun _ v' => v' = _)
    (show Env.addressOf plan.sourceToken = .ok token.address by rw [htoken]; rfl) rfl).keeping ?_
  rintro _ _ rfl
  rw [hhome] at hnet haccounts hretries ⊢
  refine Leads.bind (leads_operatorWrite hG ⟨?_, ?_, ?_⟩ ⟨accounts, haccounts⟩ hretries
    ⟨net, contracts_of_some hnet⟩).keeping ?_
  · simp [Call.kind, CallKind.admitted, hescrow]
  · simp [hescrow, hsteady]
  · simp [Call.kind, CallKind.effect, hsteady]
  rintro tx _ rfl
  have hrun : Proceeding i amount .liquidityReserved p
      { v with sent := sent, escrow := .initiated } :=
    ⟨hrun.row, hrun.stored, hrun.same, hrun.kept, hrun.held⟩
  refine Leads.bind (leads_advance hG hrun rfl (by decide) rfl rfl).keeping ?_
  rintro row _ ⟨hrun, stored, rfl⟩
  exact leads_ret ⟨hrun, rfl, rfl, rfl, rfl⟩

/-- The settlement leg: the escrow is settled, and the payment is at `FX_OR_SWAP_COMPLETED`. -/
theorem leads_settlementLeg (hG : Unfailing G) {q : Payment} {pid : String} {initTx : TxResult}
    (h : Equipped env plan units) (hmade : Made env q plan)
    (hhome : plan.sourceNet = s₀.payment.sourceNetwork)
    (hrun : Proceeding i amount .submittedOnchain p v) (hescrow : v.escrow = .initiated)
    (hsteady : v.steady = [.none, .initiated, .settled]) :
    Leads env i G s₀ v (fun r v' => Proceeding i amount .fxOrSwapCompleted r.1 v' ∧ Beside v v')
      (settlementLeg env plan pid initTx p) := by
  obtain ⟨net, -, hnet, -⟩ := h.source hmade
  obtain ⟨destNet, token, hdestNet, htoken, hunits⟩ := h.destination
  obtain ⟨accounts, -, haccounts, -⟩ := h.wallet
  have hretries := h.retries
  unfold settlementLeg
  refine Leads.bind (leads_advance hG hrun rfl (by decide) rfl rfl).keeping ?_
  rintro row _ ⟨hrun, stored, rfl⟩
  refine Leads.bind (leads_lift (P := fun a v' => a = destNet ∧ v' = _) (contracts_of_some hdestNet)
    ⟨rfl, rfl⟩).keeping ?_
  rintro _ _ ⟨rfl, rfl⟩
  refine Leads.bind (leads_lift (P := fun a v' => a = token.decimals ∧ v' = _)
    (show Env.decimalsOf _ = .ok token.decimals by rw [htoken]; rfl) ⟨rfl, rfl⟩).keeping ?_
  rintro _ _ ⟨rfl, rfl⟩
  refine Leads.bind
    (leads_lift (P := fun _ v' => v' = _) (toBaseUnits_of_parse hunits) rfl).keeping ?_
  rintro settledUnits _ rfl
  refine Leads.bind (leads_lift (P := fun _ v' => v' = _) haccounts rfl).keeping ?_
  rintro _ _ rfl
  rw [hhome] at hnet haccounts hretries ⊢
  refine Leads.bind (leads_operatorWrite hG ⟨?_, ?_, ?_⟩ ⟨accounts, haccounts⟩ hretries
    ⟨net, contracts_of_some hnet⟩).keeping ?_
  · simp [Call.kind, CallKind.admitted, hescrow]
  · simp [hescrow, hsteady]
  · simp [Call.kind, CallKind.effect, hsteady]
  rintro tx _ rfl
  have hrun : Proceeding i amount .confirmedOnchain row
      { v with payment := stored, escrow := .settled } :=
    ⟨hrun.row, hrun.stored, hrun.same, hrun.kept, hrun.held⟩
  refine Leads.bind (leads_advance hG hrun rfl (by decide) rfl rfl).keeping ?_
  rintro row _ ⟨hrun, stored, rfl⟩
  exact leads_ret ⟨hrun, rfl, rfl, rfl⟩

/-! ## The payout -/

/-- The recipient is paid on the destination network, or was by the settlement. -/
theorem leads_payRecipient (hG : Unfailing G) {settledUnits : ℕ} (h : Equipped env plan units)
    (hrun : Proceeding i amount .payoutPending p v) :
    Leads env i G s₀ v (fun p' v' => Proceeding i amount .payoutPending p' v' ∧ Beside v v')
      (payRecipient env plan settledUnits p) := by
  unfold payRecipient
  cases hcross : plan.isCrossChain with
  | false => exact leads_ret ⟨hrun, rfl, rfl, rfl⟩
  | true =>
    obtain ⟨net, token, hnet, htoken, -⟩ := h.destination
    have htransfers : Transfers env plan.destNet plan.destAsset.symbol :=
      ⟨⟨net, token, contracts_of_some hnet, htoken⟩, h.accounts hcross⟩
    refine Leads.bind (leads_treasuryTokenTransfer hG htransfers).keeping ?_
    rintro hash _ rfl
    refine Leads.bind (leads_updatePayment hG _).keeping ?_
    rintro row _ ⟨hrow, rfl⟩
    refine Leads.bind (leads_audit hG _ _ _).keeping ?_
    rintro - _ rfl
    refine Leads.bind (leads_confirm hG rfl).keeping ?_
    rintro - _ rfl
    refine Leads.bind (leads_audit hG _ _ _).keeping ?_
    rintro - _ rfl
    refine leads_ret ⟨⟨?_, hrun.stored, ?_, hrun.kept, hrun.held⟩, rfl, rfl, rfl⟩
    · rw [hrow]
      exact hrun.stored
    · rw [hrow]
      exact hrun.kept

/-- The payout leg: the recipient is paid and credited, and the payment is `SETTLED`. -/
theorem leads_payoutLeg (hG : Unfailing G) {settledUnits : ℕ} {res : LiquidityReservation}
    (h : Equipped env plan units) (hrun : Proceeding i amount .fxOrSwapCompleted p v)
    (hcredits : v.credits = []) (hres : v.reservation = some res) :
    Leads env i G s₀ v (EndsAt i .settled) (payoutLeg env plan settledUnits p) := by
  unfold payoutLeg
  refine Leads.bind (leads_advance hG hrun rfl (by decide) rfl rfl).keeping ?_
  rintro row _ ⟨hrun, stored, rfl⟩
  refine Leads.bind (leads_payRecipient hG h hrun) ?_
  rintro row' w ⟨hrun, hbeside⟩
  refine Leads.bind (leads_creditRecipient hG (hbeside.credits.trans hcredits)).keeping ?_
  rintro - _ rfl
  refine Leads.bind (Leads.keeping (leads_updateReservation (r := res) hG .consumed ?_)) ?_
  · exact hbeside.reservation.trans hres
  rintro - _ rfl
  refine Leads.keeping (leads_move hG (hrun.row.trans hrun.stored.symm) ?_ (.inl hrun.held) rfl rfl)
  show canTransition w.payment.status .settled = true
  rw [hrun.stored]
  rfl

/-- The three legs one after another settle the payment. -/
theorem leads_settle (hG : Unfailing G) {q : Payment} {pid : String} {amountUnits : ℕ}
    {res : LiquidityReservation} (h : Equipped env plan units) (hmade : Made env q plan)
    (hhome : plan.sourceNet = s₀.payment.sourceNetwork)
    (hrun : Proceeding i amount .liquidityReserved p v) (hescrow : v.escrow = .none)
    (hsteady : v.steady = [.none, .initiated, .settled]) (hcredits : v.credits = [])
    (hres : v.reservation = some res) :
    Leads env i G s₀ v (EndsAt i .settled) (settle env plan pid amountUnits p) := by
  unfold settle
  refine Leads.bind (leads_escrowLeg hG h hmade hhome hrun hescrow hsteady) ?_
  rintro ⟨row, initTx⟩ w ⟨hrun, hescrow, hbeside⟩
  refine Leads.bind (leads_settlementLeg hG h hmade hhome hrun hescrow
    (hbeside.steady.trans hsteady)) ?_
  rintro ⟨row', settledUnits⟩ w' ⟨hrun, hbeside'⟩
  exact leads_payoutLeg hG h hrun (hbeside'.credits.trans (hbeside.credits.trans hcredits))
    (hbeside'.reservation.trans (hbeside.reservation.trans hres))

/-! ## Before the escrow -/

/-- The liquidity that is read is enough. -/
theorem leads_availableLiquidity (hG : Unfailing G) (hfree : ∀ c, G c → units ≤ c.treasury.free)
    {net : DeployedNetwork} {token : Token} {network : Network} {symbol : AssetSymbol}
    (hnet : env.deployments.networks network = some net) (htoken : net.tokens symbol = some token) :
    Leads env i G s₀ v
      (fun liq v' => liq.decimals = token.decimals ∧ units ≤ liq.availableUnits ∧ v' = v)
      (availableLiquidity env symbol network) := by
  have htokenOn : tokenOn net network symbol = .ok token := by rw [tokenOn, htoken]
  simp only [availableLiquidity, hnet]
  refine Leads.bind (leads_lift (P := fun a v' => a = token ∧ v' = v) htokenOn ⟨rfl, rfl⟩) ?_
  rintro _ _ ⟨rfl, rfl⟩
  refine Leads.bind (P := fun b v' => units ≤ b.free ∧ v' = _)
    (leads_call hG (.freeTreasuryBalance ..)
    fun s c hs hc => ⟨_, s, rfl, _, ⟨hfree c hc, rfl⟩, hs⟩) ?_
  rintro balance _ ⟨hfree, rfl⟩
  exact leads_ret ⟨rfl, hfree, rfl⟩

/-- What is due is in the treasury. -/
theorem leads_needed (hG : Unfailing G) (hfree : ∀ c, G c → units ≤ c.treasury.free)
    (h : Equipped env plan units) {short : LiquiditySnapshot → Saga Unit} :
    Leads env i G s₀ v (fun _ v' => v' = v) (do
      let liq ← availableLiquidity env plan.destAsset.symbol plan.destNet
      let neededUnits ← lift (destinationUnits plan.destAmount liq.decimals)
      if liq.availableUnits < neededUnits then short liq else return ()) := by
  obtain ⟨net, token, hnet, htoken, hunits⟩ := h.destination
  refine Leads.bind (leads_availableLiquidity hG hfree hnet htoken) ?_
  rintro liq _ ⟨hdecimals, hfree, rfl⟩
  rw [hdecimals]
  refine Leads.bind (leads_lift (P := fun a v' => a = units ∧ v' = _) hunits ⟨rfl, rfl⟩) ?_
  rintro _ _ ⟨rfl, rfl⟩
  simp only [Nat.not_lt.mpr hfree, if_false]
  exact leads_ret rfl

/-- The reservation is made. -/
theorem leads_reserveLiquidity (hG : Unfailing G) (hrun : Proceeding i amount .approved p v) :
    Leads env i G s₀ v (fun _ v' => Proceeding i amount .approved p v' ∧ ∃ row res,
      v' = { v with payment := row, reservation := some res }) (reserveLiquidity i p plan) := by
  unfold reserveLiquidity
  refine Leads.bind (P := fun held v' => held = true ∧ Proceeding i amount .approved p v' ∧
    ∃ row res, v' = { v with payment := row, reservation := some res }) (leads_call hG (.reserve ..)
    fun s c hs _ => ?_) ?_
  · have hmay : s.payment.status = .approved ∧ s.payment.executionLeaseId = some i := by
      rw [hs.payment]
      exact ⟨hrun.stored, hrun.held⟩
    simp only [Stmt.perform, State.reserve, if_pos hmay]
    refine ⟨_, _, rfl, _, ⟨rfl, ?_, _, _, rfl⟩,
      ⟨⟨rfl, rfl, hs.credits, hs.known, hs.length, hs.sent⟩,
      hs.escrow, hs.here, hs.calm⟩⟩
    exact ⟨hrun.row, hmay.1, hrun.same, (congrArg _ hs.payment).trans hrun.kept, hmay.2⟩
  · rintro _ v' ⟨rfl, hrest⟩
    exact leads_ret hrest

/-- The destination is aligned, and the payment is still `APPROVED`. -/
theorem leads_alignDestination (hG : Unfailing G) (hrun : Proceeding i amount .approved p v)
    {network : Network} :
    Leads env i G s₀ v (fun p' v' => Proceeding i amount .approved p' v' ∧
      ∃ row, v' = { v with payment := row }) (alignDestination p network) := by
  unfold alignDestination
  split
  · refine (leads_updatePayment hG _).mono ?_
    rintro _ _ ⟨rfl, rfl⟩
    exact ⟨⟨hrun.stored, hrun.stored, hrun.kept, hrun.kept, hrun.held⟩, _, rfl⟩
  · exact leads_ret ⟨hrun, _, rfl⟩

/-! ## The whole execution -/

/-- The execution proper settles an approved payment. -/
theorem leads_runExecution (hG : Unfailing G) (hfree : ∀ c, G c → units ≤ c.treasury.free)
    (h : Equipped env plan units) (hplan : Plan.make env p = .ok plan)
    (hhome : plan.sourceNet = s₀.payment.sourceNetwork)
    (hamount : ∀ decimals, ∃ amountUnits, toBaseUnits amount decimals = .ok amountUnits)
    (hrun : Proceeding i amount .approved p v) (hescrow : v.escrow = .none)
    (hsteady : v.steady = [.none, .initiated, .settled]) (hcredits : v.credits = []) :
    Leads env i G s₀ v (EndsAt i .settled) (runExecution env i p) := by
  have hmade := Plan.made hplan
  obtain ⟨net, token, -, -, htoken⟩ := h.source hmade
  obtain ⟨amountUnits, hamountUnits⟩ := hamount token.decimals
  unfold runExecution
  refine Leads.bind (leads_lift (P := fun a v' => a = plan ∧ v' = v) hplan ⟨rfl, rfl⟩) ?_
  rintro _ _ ⟨rfl, rfl⟩
  refine Leads.bind (leads_alignDestination hG hrun) ?_
  rintro p _ ⟨hrun, row, rfl⟩
  -- nothing is recalled, and the check is passed
  refine Leads.bind (leads_needed hG hfree h) ?_
  rintro - _ rfl
  refine Leads.bind (leads_needed hG hfree h) ?_
  rintro - _ rfl
  refine Leads.bind (leads_reserveLiquidity hG hrun) ?_
  rintro - _ ⟨hrun, row, res, rfl⟩
  refine Leads.bind (leads_advance hG hrun rfl (by decide) rfl rfl) ?_
  rintro p _ ⟨hrun, row, rfl⟩
  refine Leads.bind (leads_lift (P := fun a v' => a = token.decimals ∧ v' = _)
    (show Env.decimalsOf _ = .ok token.decimals by rw [htoken]; rfl) ⟨rfl, rfl⟩) ?_
  rintro _ _ ⟨rfl, rfl⟩
  rw [hrun.same]
  refine Leads.bind (leads_lift (P := fun _ v' => v' = _) hamountUnits rfl) ?_
  rintro units _ rfl
  exact (leads_settle hG h hmade hhome hrun hescrow hsteady hcredits rfl).handle

/-- A request to execute a payment that was approved. -/
theorem leads_runExecute (hG : Unfailing G) (hfree : ∀ c, G c → units ≤ c.treasury.free)
    {actor : String} {routeId : Option String} (hstatus : v.payment.status = .approved)
    (hunleased : v.payment.executionLeaseId = none) (husable : usableAmount v.payment = .ok ())
    (hplan : Plan.make env v.payment = .ok plan) (h : Equipped env plan units)
    (hhome : plan.sourceNet = s₀.payment.sourceNetwork)
    (hescrow : v.escrow = .none) (hsteady : v.steady = [.none, .initiated, .settled])
    (hcredits : v.credits = []) :
    Leads env i G s₀ v (fun p v' => p.status = .settled ∧ v'.payment.status = .settled)
      (runExecute env i actor routeId) := by
  have hamount : ∀ decimals, ∃ amountUnits,
      toBaseUnits v.payment.amount decimals = .ok amountUnits := by
    intro decimals
    unfold usableAmount at husable
    split at husable
    · rename_i hparse
      exact toBaseUnits_of_parseAmount hparse decimals
    · cases husable
  have hselection : routeSelection v.payment routeId = .ok {} := by
    cases routeId with
    | none => rfl
    | some id => simp [routeSelection, hstatus]
  refine Leads.bind (leads_findPayment hG) ?_
  rintro _ w ⟨rfl, rfl⟩
  refine Leads.bind (leads_lift (P := fun _ v' => v' = w) husable rfl) ?_
  rintro _ _ rfl
  refine Leads.bind (leads_lift (P := fun _ v' => v' = _) hselection rfl) ?_
  rintro _ w rfl
  simp only [hstatus]
  refine Leads.handle (Leads.bind (leads_findPayment hG) ?_)
  rintro _ w ⟨rfl, rfl⟩
  simp only [hstatus]
  refine (leads_withExecutionLease hG (P := EndsAt i .settled) hstatus hunleased
    (fun _ _ hP => hP.2.2) fun p hleased => ?_).mono ?_
  · obtain ⟨now, rfl⟩ := hleased
    have hplan' : Plan.make env { w.payment with executionLeaseId := some i } = .ok plan := hplan
    exact leads_runExecution hG hfree h hplan' hhome hamount ⟨rfl, hstatus, rfl, rfl, rfl⟩ hescrow
      hsteady hcredits
  · rintro p v' ⟨w', ⟨rfl, hends, -⟩, hsame, -⟩
    exact ⟨hends, hsame.trans hends⟩

end

end SettlementOS.Analysis
