import SettlementOS.Analysis.Allowances
import SettlementOS.Analysis.Treasury

/-!
# What the chain says of an allowance

As long as only payments of one sender and asset grant or draw it, the allowance on the chain is
what their history leaves, the sender still has what it had less what they have drawn, and a
payment that has a record in escrow got it from one of them.
-/

set_option autoImplicit false

namespace SettlementOS.Analysis

open SettlementOS.Computation Service Model.Allowances Program.Allowances
open SettlementOS.Contracts (Address Bytes32 MockERC20 Outside)
open SettlementOS.Contracts.Escrow (machine history)
open Model (AssetSymbol AuditRecord Err Hash)

/-! ## Calls of others -/

section

variable {contract : Address}

/-- A call that is neither the admin's nor an escrow gives no payment a record. -/
theorem bystander_ok {w w' : Contracts.Escrow.World} {c : Contracts.Escrow.Call contract}
    {logs : List Contracts.Escrow.Log} (hc : administers c = false)
    (h : Contracts.Escrow.exec contract w c = .ok (w', logs)) :
    w'.storage.operators = w.storage.operators ∧
      w'.storage.approvedAssets = w.storage.approvedAssets ∧
      ∀ id, (w'.storage.payments id).state ≠ .NONE → (w.storage.payments id).state ≠ .NONE := by
  have hrelease : ∀ {id state payee failed events}, Contracts.Escrow.release contract w
      c.msgSender.val id state payee failed events = .ok (w', logs) →
      w'.storage.operators = w.storage.operators ∧
        w'.storage.approvedAssets = w.storage.approvedAssets ∧
        ∀ id, (w'.storage.payments id).state ≠ .NONE → (w.storage.payments id).state ≠ .NONE := by
    intro id state payee failed events hrel
    obtain ⟨hinit, t, t', -, -, -, -, rfl, -⟩ := release_ok hrel
    refine ⟨rfl, rfl, fun other hother => ?_⟩
    change ((w.setPayment id _).storage.payments other).state ≠ _ at hother
    rw [payments_setPayment] at hother
    by_cases heq : other = id
    · rw [heq, hinit]
      decide
    · rwa [if_neg heq] at hother
  obtain ⟨msgSender, request⟩ := c
  cases request with
  | setOperator => cases hc
  | setApprovedAsset => cases hc
  | initiatePayment => cases hc
  | settlePayment id routeId releaseTo settledAmount destinationAsset =>
    unfold Contracts.Escrow.exec Contracts.Escrow.settlePayment at h
    exact hrelease h
  | cancelPayment id =>
    unfold Contracts.Escrow.exec Contracts.Escrow.cancelPayment at h
    exact hrelease h
  | failAndRefund id reason =>
    unfold Contracts.Escrow.exec Contracts.Escrow.failAndRefund at h
    exact hrelease h
  | token asset request =>
    simp only [Contracts.Escrow.exec, bind_eq_ok] at h
    obtain ⟨⟨_, _⟩, hcall, heq⟩ := h
    cases heq
    obtain ⟨t, t', -, -, rfl⟩ := callToken_ok hcall
    exact ⟨rfl, rfl, fun _ hother => hother⟩
  | deployToken asset =>
    simp only [Contracts.Escrow.exec, bind_eq_ok] at h
    obtain ⟨_, _, heq⟩ := h
    cases heq
    exact ⟨rfl, rfl, fun _ hother => hother⟩

/-! ## Transactions -/

/-- A call that goes through is in the last receipt. -/
theorem submit_ok {s : State contract} {c : Contracts.Escrow.Call contract}
    {w : Contracts.Escrow.World} {logs : List Contracts.Escrow.Log}
    (h : Contracts.Escrow.exec contract s.chain.world c = .ok (w, logs)) :
    s.submit c = (.ok s.chain.receipts.length,
      { s with chain := ⟨w, ⟨c, logs⟩ :: s.chain.receipts⟩ }) := by
  unfold State.submit
  rw [h]

/-- A call that reverts leaves everything as it was. -/
theorem submit_error {s : State contract} {c : Contracts.Escrow.Call contract} {e : Revert}
    (h : Contracts.Escrow.exec contract s.chain.world c = .error e) :
    s.submit c = (.error (Model.Treasury.refusal e), s) := by
  unfold State.submit
  rw [h]

/-- An approval always goes through where the token is deployed. -/
theorem exec_approve {w : Contracts.Escrow.World} {token : Address} {t : MockERC20}
    (owner : Outside contract) (amount : Uint256) (ht : w.tokens token = some t) :
    Contracts.Escrow.exec contract w ⟨owner, .token token (.approve contract amount)⟩ =
      .ok (w.setToken token (t.setAllowance owner.val contract amount),
        [.token token (.approval owner.val contract amount)]) := by
  have hserve : t.serve owner.val (.approve contract amount) =
      .ok (t.setAllowance owner.val contract amount, [.approval owner.val contract amount]) := rfl
  unfold Contracts.Escrow.exec
  dsimp only
  rw [callToken_succeeds (f := fun t => t.serve owner.val (.approve contract amount)) ht hserve]
  rfl

/-- An allowance is what the token says. -/
theorem allowance_of_token {s : State contract} {token : Address} {t : MockERC20}
    (ht : s.chain.world.tokens token = some t) (owner : Address) :
    s.allowance token owner = some (t.allowance owner contract).val := by
  unfold State.allowance
  rw [ht]
  rfl

/-- A balance is what the token says. -/
theorem balance_of_token {s : State contract} {token : Address} {t : MockERC20}
    (ht : s.chain.world.tokens token = some t) (owner : Address) :
    s.balance token owner = (t.balanceOf owner).val := by
  unfold State.balance
  rw [ht]

/-- Where there is an allowance, there is a token. -/
theorem token_of_allowance {s : State contract} {token owner : Address} {n : ℕ}
    (h : s.allowance token owner = some n) :
    ∃ t, s.chain.world.tokens token = some t ∧ (t.allowance owner contract).val = n :=
  Option.map_eq_some_iff.mp h

end

/-! ## What statements do to the chain -/

variable {env : Env} {sender : Sender} {symbol : AssetSymbol} {token : Address}
variable {owner : Outside env.contract} {p : Payment} {s₀ s : State env.contract}
variable {h : List (Entry (allowanceEffects env.contract))}

/-- The record in escrow that an event has made. -/
def recordedBy : Event (allowanceEffects env.contract) → Option Bytes32
  | ⟨.initiatePayment id _ _ _ _ _ _, .ok _⟩ => some id
  | _ => none

/-- What the chain has to do with a history that began at `s₀`. -/
structure Tracked (env : Env) (token : Address) (owner : Outside env.contract)
    (s₀ s : State env.contract) (h : List (Entry (allowanceEffects env.contract))) : Prop where
  kept : Kept s.chain
  operator : s.chain.world.storage.operators env.operator.val = true
  approved : s.chain.world.storage.approvedAssets token = true
  allowed : s.allowance token owner.val = some (allowedAfter h)
  funds : s₀.balance token owner.val ≤ s.balance token owner.val + drawn h
  fresh : ∀ id, (s.chain.world.storage.payments id).state ≠ .NONE →
    (s₀.chain.world.storage.payments id).state ≠ .NONE ∨
      ∃ e ∈ h, recordedBy ⟨e.stmt, e.answer⟩ = some id

/-- A statement that neither moves the chain nor counts for anything. -/
theorem Tracked.idle (ht : Tracked env token owner s₀ s h) {s' : State env.contract}
    (hchain : s'.chain = s.chain) {e : Entry (allowanceEffects env.contract)}
    (hmoved : moved ⟨e.stmt, e.answer⟩ = false) (hdrawn : drawnBy ⟨e.stmt, e.answer⟩ = 0) :
    Tracked env token owner s₀ s' (e :: h) := by
  obtain ⟨chain, events⟩ := s'
  cases hchain
  refine ⟨ht.kept, ht.operator, ht.approved, ?_, ?_, fun id hid => ?_⟩
  · rw [allowedAfter, allowedBy_quiet hmoved]
    exact ht.allowed
  · rw [drawn_cons, hdrawn, Nat.zero_add]
    exact ht.funds
  · rcases ht.fresh id hid with hold | ⟨e', he', hrecorded⟩
    · exact .inl hold
    · exact .inr ⟨e', List.mem_cons_of_mem e he', hrecorded⟩

/-- An approval sets the allowance. -/
theorem Tracked.approve (ht : Tracked env token owner s₀ s h) (i amount : ℕ) :
    Tracked env token owner s₀ (perform env (.approve token owner amount) s).2
      (⟨i, .approve token owner amount, (perform env (.approve token owner amount) s).1⟩ :: h) := by
  obtain ⟨t, htoken, -⟩ := token_of_allowance ht.allowed
  cases hencode : Model.Treasury.encode amount with
  | error e =>
    have hperform : perform env (.approve token owner amount) s = (.error e, s) := by
      simp only [perform, hencode]
    rw [hperform]
    exact ht.idle rfl rfl rfl
  | ok word =>
    have hword : word.val = amount := Int.ofNat.inj (encode_ok hencode)
    have hexec := exec_approve owner word htoken
    have hperform : perform env (.approve token owner amount) s = (.ok s.chain.receipts.length,
        { s with chain :=
          ⟨s.chain.world.setToken token (t.setAllowance owner.val env.contract word),
            ⟨⟨owner, .token token (.approve env.contract word)⟩,
              [.token token (.approval owner.val env.contract word)]⟩ :: s.chain.receipts⟩ }) := by
      simp only [perform, hencode]
      exact submit_ok hexec
    rw [hperform]
    refine ⟨ht.kept.exec hexec, ht.operator, ht.approved, ?_, ?_, fun id hid => ?_⟩
    · refine (allowance_of_token (Function.update_self _ _ _) owner.val).trans ?_
      simp only [MockERC20.setAllowance, Function.update_self]
      exact congrArg some hword
    · have hfunds := ht.funds
      rw [balance_of_token htoken] at hfunds
      rw [drawn_cons]
      refine hfunds.trans (Nat.add_le_add (le_of_eq ?_) (Nat.le_add_left _ _))
      exact (balance_of_token (t := t.setAllowance owner.val env.contract word)
        (Function.update_self _ _ _) owner.val).symm
    · rcases ht.fresh id hid with hold | ⟨e', he', hrecorded⟩
      · exact .inl hold
      · exact .inr ⟨e', List.mem_cons_of_mem _ he', hrecorded⟩

/-- An escrow that goes through draws its amount from the allowance and from what the sender
has. -/
theorem Tracked.escrow (ht : Tracked env token owner s₀ s h) {i amount : ℕ} {word : Uint256}
    {id : Bytes32} {recipient : Address} {source destination : String}
    {w : Contracts.Escrow.World} {logs : List Contracts.Escrow.Log} (hword : word.val = amount)
    (hexec : Contracts.Escrow.exec env.contract s.chain.world ⟨env.operator,
      .initiatePayment id owner.val recipient token word source destination⟩ = .ok (w, logs)) :
    Tracked env token owner s₀
      { s with chain := ⟨w, ⟨⟨env.operator,
        .initiatePayment id owner.val recipient token word source destination⟩, logs⟩ ::
          s.chain.receipts⟩ }
      (⟨i, .initiatePayment id owner.val recipient token amount source destination,
        .ok s.chain.receipts.length⟩ :: h) := by
  obtain ⟨t, htoken, hallowed⟩ := token_of_allowance ht.allowed
  have hkept := ht.kept.exec hexec
  obtain ⟨t₁, t', done, tokenLogs, ht₁, hdraw, rfl⟩ := initiatePayment_draws hexec
  obtain rfl : t₁ = t := Option.some.inj (ht₁.symm.trans htoken)
  refine ⟨hkept, ht.operator, ht.approved, ?_, ?_, fun other hother => ?_⟩
  · refine (allowance_of_token (t := t') (Function.update_self _ _ _) owner.val).trans ?_
    have hmax : t₁.allowance owner.val env.contract = Uint256.max ↔
        allowedAfter h = Uint256.max.val := by
      rw [← hallowed]
      exact Fin.ext_iff
    rw [transferFrom_allowance hdraw, hallowed, hword, if_congr hmax rfl rfl]
    rfl
  · have hmoved := (transferFrom_ok hdraw).2.2.1 owner.val
    have hfunds := ht.funds
    rw [if_pos rfl, if_neg owner.property, hword] at hmoved
    rw [balance_of_token htoken] at hfunds
    rw [drawn_cons]
    calc s₀.balance token owner.val
        ≤ (t₁.balanceOf owner.val).val + drawn h := hfunds
      _ = (t'.balanceOf owner.val).val + (amount + drawn h) := by omega
      _ = _ := congrArg (· + (amount + drawn h))
        (balance_of_token (t := t') (Function.update_self _ _ _) owner.val).symm
  · change ((s.chain.world.setPayment id _).storage.payments other).state ≠ _ at hother
    rw [payments_setPayment] at hother
    by_cases hid : other = id
    · exact .inr ⟨_, List.mem_cons_self, congrArg some hid.symm⟩
    · rw [if_neg hid] at hother
      rcases ht.fresh other hother with hold | ⟨e', he', hrecorded⟩
      · exact .inl hold
      · exact .inr ⟨e', List.mem_cons_of_mem _ he', hrecorded⟩

/-- An escrow is refused, or draws. -/
theorem Tracked.initiate (ht : Tracked env token owner s₀ s h) (i amount : ℕ) (id : Bytes32)
    (recipient : Address) (source destination : String) :
    Tracked env token owner s₀
      (perform env (.initiatePayment id owner.val recipient token amount source destination) s).2
      (⟨i, .initiatePayment id owner.val recipient token amount source destination, (perform env
        (.initiatePayment id owner.val recipient token amount source destination) s).1⟩ :: h) := by
  cases hencode : Model.Treasury.encode amount with
  | error e =>
    have hperform : perform env (.initiatePayment id owner.val recipient token amount source
        destination) s = (.error e, s) := by
      simp only [perform, hencode]
    rw [hperform]
    exact ht.idle rfl rfl rfl
  | ok word =>
    cases hexec : Contracts.Escrow.exec env.contract s.chain.world ⟨env.operator,
      .initiatePayment id owner.val recipient token word source destination⟩ with
    | error e =>
      have hperform : perform env (.initiatePayment id owner.val recipient token amount source
          destination) s = (.error (Model.Treasury.refusal e), s) := by
        simp only [perform, hencode]
        exact submit_error hexec
      rw [hperform]
      exact ht.idle rfl rfl rfl
    | ok r =>
      obtain ⟨w, logs⟩ := r
      have hperform : perform env (.initiatePayment id owner.val recipient token amount source
          destination) s = (.ok s.chain.receipts.length, { s with chain := ⟨w, ⟨⟨env.operator,
            .initiatePayment id owner.val recipient token word source destination⟩, logs⟩ ::
              s.chain.receipts⟩ }) := by
        simp only [perform, hencode]
        exact submit_ok hexec
      rw [hperform]
      exact ht.escrow (Int.ofNat.inj (encode_ok hencode)) hexec

/-- A reading answers with the allowance. -/
theorem perform_allowance (ht : Tracked env token owner s₀ s h) :
    perform env (.allowance token owner) s = (.ok (allowedAfter h), s) := by
  simp only [perform, ht.allowed]

/-- Whatever a payment performs by its law, the history tells what it did. -/
theorem Tracked.perform (ht : Tracked env token owner s₀ s h) (i : ℕ) {o : Stmt env.contract}
    {past : List (Event (allowanceEffects env.contract))}
    (hallows : (escrowLaw token owner p).Allows past ⟨o, (Model.Allowances.perform env o s).1⟩) :
    Tracked env token owner s₀ (Model.Allowances.perform env o s).2
      (⟨i, o, (Model.Allowances.perform env o s).1⟩ :: h) := by
  cases o with
  | allowance asset account =>
    obtain ⟨rfl, rfl, -⟩ := hallows
    rw [perform_allowance ht]
    exact ht.idle rfl rfl rfl
  | approve asset account amount =>
    obtain ⟨rfl, rfl, -⟩ := hallows
    exact ht.approve i amount
  | audit record =>
    have hidle : ∀ s' : State env.contract, s'.chain = s.chain →
        Tracked env token owner s₀ s' (⟨i, .audit record, .ok ()⟩ :: h) :=
      fun s' hchain => ht.idle hchain rfl rfl
    exact hidle _ rfl
  | initiatePayment id payer recipient asset amount source destination =>
    obtain ⟨-, rfl, rfl, -⟩ := hallows
    exact ht.initiate i amount id recipient source destination

/-- What others do leaves it true. -/
theorem Tracked.interfere (ht : Tracked env token owner s₀ s h) {s' : State env.contract}
    {c : Contracts.Escrow.Call env.contract}
    (hother : Model.Allowances.interfere token owner.val c s = some s') :
    Tracked env token owner s₀ s' h := by
  unfold Model.Allowances.interfere at hother
  split at hother
  · cases hother
  · rename_i hadmin
    cases hexec : Contracts.Escrow.exec env.contract s.chain.world c with
    | error e =>
      rw [submit_error hexec] at hother
      cases hother
    | ok r =>
      obtain ⟨w, logs⟩ := r
      rw [submit_ok hexec] at hother
      dsimp only at hother
      split at hother
      · rename_i hspared
        obtain rfl := Option.some.inj hother
        obtain ⟨hoperators, hassets, hrecords⟩ :=
          bystander_ok (Bool.eq_false_iff.mpr hadmin) hexec
        refine ⟨ht.kept.exec hexec, ?_, ?_, hspared.1.trans ht.allowed, ?_, fun id hid => ?_⟩
        · exact (congrFun hoperators _).trans ht.operator
        · exact (congrFun hassets _).trans ht.approved
        · exact ht.funds.trans (Nat.add_le_add_right hspared.2 _)
        · exact ht.fresh id (hrecords id hid)
      · cases hother

/-! ## Runs -/

/-- The network knows the sender and the asset, the escrow contract takes the asset from the
operator, and the sender has allowed it nothing. -/
structure Prepared (env : Env) (sender : Sender) (symbol : AssetSymbol)
    (asset : Model.Treasury.DeployedToken) (owner : Outside env.contract)
    (s : State env.contract) : Prop where
  token : env.tokens symbol = some asset
  wallet : env.entityWallets sender.externalId = some owner
  registered : sender.wallet = owner.val
  chain : ∃ deployer calls, s.chain = history env.contract deployer calls
  operator : s.chain.world.storage.operators env.operator.val = true
  approved : s.chain.world.storage.approvedAssets asset.address = true
  allowance : s.allowance asset.address owner.val = some 0

variable {asset : Model.Treasury.DeployedToken}

/-- The chain is tracked from the start. -/
theorem Prepared.tracked (hprepared : Prepared env sender symbol asset owner s) :
    Tracked env asset.address owner s s [] := by
  obtain ⟨deployer, calls, hchain⟩ := hprepared.chain
  have hkept : Kept s.chain := hchain ▸ kept_history env.contract deployer calls
  exact ⟨hkept, hprepared.operator, hprepared.approved, hprepared.allowance, Nat.le_add_right _ _,
    fun _ hid => .inl hid⟩

/-- What the laws say of a run. -/
theorem lawful_escrows (hprepared : Prepared env sender symbol asset owner s)
    {c : (service env sender symbol).Config}
    (hreach : (Config.start (S := service env sender symbol) s).Reaches c) :
    Lawful (fun _ p => escrowLaw asset.address owner p) (fun _ _ _ => EndsWith escrowed)
      (fun _ _ _ => EndsWith failed) c :=
  hreach.keeps (fun _ _ _ _ _ _ _ _ => trivial) fun _ _ =>
    keeps_allowThenEscrow hprepared.token hprepared.wallet hprepared.registered

/-- The history tells the allowance, along every run. -/
theorem tracked_of_run (hprepared : Prepared env sender symbol asset owner s)
    {c : (service env sender symbol).Config}
    (hreach : (Config.start (S := service env sender symbol) s).Reaches c) :
    Tracked env asset.address owner s c.world.state c.world.history := by
  refine hreach.induct (P := fun c : (service env sender symbol).Config =>
    Tracked env asset.address owner s c.world.state c.world.history) hprepared.tracked ?_
  intro c₁ m c₂ hreach₁ ht hm
  rcases Config.step_eq_some hm with ⟨r, -, rfl⟩ | ⟨i, ch, r, o, k, a, w, -, hi, he, rfl⟩ |
    ⟨x, s', -, hs', rfl⟩
  · exact ht
  · obtain ⟨s', hexec, rfl⟩ := World.exec_eq_some.mp he
    obtain ⟨rfl, rfl⟩ := Prod.mk.inj (Option.some.inj hexec)
    have hkeeps := (lawful_escrows hprepared hreach₁).keeps i _ hi
    exact ht.perform i (hkeeps _ trivial).1
  · have hother :
        Model.Allowances.interfere asset.address owner.val x c₁.world.state = some s' := by
      have hoff := hs'
      simp only [hprepared.token, hprepared.wallet] at hoff
      exact hoff
    exact ht.interfere hother

end SettlementOS.Analysis
