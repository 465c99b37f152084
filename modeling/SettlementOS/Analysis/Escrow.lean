import SettlementOS.Contracts.PaymentSettlement
import SettlementOS.Analysis.Tokens

/-!
# The escrow contract keeps what it owes

`Kept` is what every history of the contract satisfies: its tokens are sound, it holds
of each asset at least what its INITIATED payments add up to, and each payment's token
transfers so far are exactly the ones its state stands for (`Traced`). The three ways
out of escrow are one lemma about `release`, and solvency makes it go through whenever
its payment is INITIATED.
-/

set_option autoImplicit false

namespace SettlementOS.Analysis

open SettlementOS.Computation SettlementOS.Contracts SettlementOS.Contracts.Escrow

/-! ## What is owed, held and recorded -/

/-- What a payment ties up of `asset`. -/
def locks (asset : Address) (p : EscrowPayment) : ℕ :=
  if p.state = .INITIATED ∧ p.asset = asset then p.amount.val else 0

/-- The amounts of INITIATED payments with `asset`, added up. -/
def owed (w : World) (asset : Address) : ℕ := ∑ id, locks asset (w.storage.payments id)

/-- An account's balance of `asset`; nothing where no token is deployed. -/
def held (w : World) (asset account : Address) : ℕ :=
  match w.tokens asset with
  | some t => (t.balanceOf account).val
  | none => 0

/-- The payment a request names. -/
def paymentOf : Request → Option Bytes32
  | .initiatePayment id _ _ _ _ _ _ => some id
  | .settlePayment id _ _ _ _ => some id
  | .cancelPayment id => some id
  | .failAndRefund id _ => some id
  | _ => none

/-- The requests that let a payment out of escrow. -/
def LetsOut (id : Bytes32) : Request → Prop
  | .settlePayment paymentId _ _ _ _ => paymentId = id
  | .cancelPayment paymentId => paymentId = id
  | .failAndRefund paymentId _ => paymentId = id
  | _ => False

/-- A token event together with the request that caused it. -/
structure Flow where
  request : Request
  asset : Address
  event : TokenEvent

/-- A log read as a flow of a request: the contract's own events are none. -/
def flowOf (request : Request) : Log → Option Flow
  | .token asset event => some ⟨request, asset, event⟩
  | .escrow _ => none

/-- The token events one receipt records about a payment. -/
def flowsOf {contract : Address} (id : Bytes32) (r : Receipt (machine contract)) : List Flow :=
  if paymentOf r.call.request = some id then r.logs.filterMap (flowOf r.call.request) else []

/-- Every token event the calls naming a payment caused, the latest first. -/
def flows {contract : Address} (id : Bytes32) (receipts : List (Receipt (machine contract))) :
    List Flow :=
  receipts.flatMap (flowsOf id)

/-- The transfer that took a payment's amount in. -/
def TakenIn (contract : Address) (id : Bytes32) (p : EscrowPayment) (f : Flow) : Prop :=
  f.asset = p.asset ∧ f.event = .transfer p.sender contract p.amount ∧
    ∃ source destination, f.request =
      .initiatePayment id p.sender p.recipient p.asset p.amount source destination

/-- The transfer that paid a payment's whole amount out: to the release address or the sender. -/
def PaidOut (contract : Address) (id : Bytes32) (p : EscrowPayment) (f : Flow) : Prop :=
  f.asset = p.asset ∧
    ((p.state = .SETTLED ∧ ∃ routeId releaseTo settledAmount destinationAsset,
        f.request = .settlePayment id routeId releaseTo settledAmount destinationAsset ∧
          f.event = .transfer contract releaseTo p.amount) ∨
      (p.state = .CANCELLED ∧ f.request = .cancelPayment id ∧
        f.event = .transfer contract p.sender p.amount) ∨
      (p.state = .REFUNDED ∧ ∃ reason, f.request = .failAndRefund id reason ∧
        f.event = .transfer contract p.sender p.amount))

/-- A payment's transfers are exactly those its state stands for. -/
def Traced (contract : Address) (id : Bytes32) (p : EscrowPayment) (fs : List Flow) : Prop :=
  (p.state = .NONE ∧ fs = []) ∨
    (p.state = .INITIATED ∧ ∃ f, TakenIn contract id p f ∧ fs = [f]) ∨
    ∃ out f, PaidOut contract id p out ∧ TakenIn contract id p f ∧ fs = [out, f]

/-- What every history keeps. -/
structure Kept {contract : Address} (s : Ledger (machine contract)) : Prop where
  sound : ∀ asset t, s.world.tokens asset = some t → Sound contract t
  positive : ∀ id, (s.world.storage.payments id).state = .INITIATED →
    0 < (s.world.storage.payments id).amount.val
  solvent : ∀ asset, owed s.world asset ≤ held s.world asset contract
  traced : ∀ id, Traced contract id (s.world.storage.payments id) (flows id s.receipts)

/-! ## Receipts -/

variable {contract : Address}

/-- A receipt about another payment, or about none, adds nothing. -/
theorem flows_cons_ne {id : Bytes32} {r : Receipt (machine contract)}
    (receipts : List (Receipt (machine contract))) (h : paymentOf r.call.request ≠ some id) :
    flows id (r :: receipts) = flows id receipts := by
  unfold flows flowsOf
  rw [List.flatMap_cons, if_neg h, List.nil_append]

/-- A reverted call adds nothing. -/
theorem flows_cons_reverted (id : Bytes32) (c : Call contract)
    (receipts : List (Receipt (machine contract))) :
    flows id (⟨c, []⟩ :: receipts) = flows id receipts := by
  unfold flows flowsOf
  rw [List.flatMap_cons]
  simp

/-- A call on a payment that caused one token event, whatever else the contract emitted. -/
theorem flows_cons_one {id : Bytes32} {c : Call contract} (asset : Address) (event : TokenEvent)
    (events : List EscrowEvent) (receipts : List (Receipt (machine contract)))
    (h : paymentOf c.request = some id) :
    flows id (⟨c, .token asset event :: events.map .escrow⟩ :: receipts) =
      ⟨c.request, asset, event⟩ :: flows id receipts := by
  have hnone : (events.map Log.escrow).filterMap (flowOf c.request) = [] := by
    rw [List.filterMap_map, List.filterMap_eq_nil_iff]
    exact fun _ _ => rfl
  have hone : flowsOf id (⟨c, .token asset event :: events.map .escrow⟩ :
      Receipt (machine contract)) = [⟨c.request, asset, event⟩] := by
    unfold flowsOf
    rw [if_pos h, List.filterMap_cons, hnone]
    rfl
  unfold flows
  rw [List.flatMap_cons, hone]
  rfl

/-! ## What calls do -/

/-- A call of a token that goes through leaves the others alone. -/
theorem callToken_ok {α : Type} {w w' : World} {asset : Address} {a : α}
    {f : MockERC20 → Except Revert (MockERC20 × α)} (h : w.callToken asset f = .ok (w', a)) :
    ∃ t t', w.tokens asset = some t ∧ f t = .ok (t', a) ∧
      w' = w.setToken asset t' := by
  unfold World.callToken at h
  split at h
  next => cases h
  next t heq =>
    simp only [bind_eq_ok] at h
    obtain ⟨⟨t', a'⟩, hf, heq'⟩ := h
    cases heq'
    exact ⟨t, t', heq, hf, rfl⟩

/-- A call of a token goes through where the token takes it. -/
theorem callToken_succeeds {α : Type} {w : World} {asset : Address} {t t' : MockERC20} {a : α}
    {f : MockERC20 → Except Revert (MockERC20 × α)} (ht : w.tokens asset = some t)
    (hf : f t = .ok (t', a)) :
    w.callToken asset f = .ok (w.setToken asset t', a) := by
  unfold World.callToken
  rw [ht]
  show f t >>= _ = _
  rw [hf]
  rfl

/-- `initiatePayment` when it does not revert. -/
theorem initiatePayment_ok {w w' : World} {msgSender sender recipient asset : Address}
    {id : Bytes32} {amount : Uint256} {source destination : String} {logs : List Log}
    (h : initiatePayment contract w msgSender id sender recipient asset amount source destination =
      .ok (w', logs)) :
    (w.storage.payments id).state = .NONE ∧ 0 < amount.val ∧
      ∃ t t', w.tokens asset = some t ∧ amount ≤ t.allowance sender contract ∧
        Transferred t t' sender contract amount ∧ t'.totalSupply = t.totalSupply ∧
        (∀ a s, t'.allowance a s ≤ t.allowance a s) ∧
        w' = (w.setPayment id ⟨sender, recipient, asset, amount, .INITIATED⟩).setToken asset t' ∧
        logs = [.token asset (.transfer sender contract amount), .escrow (.paymentInitiated id
          sender recipient asset amount source destination)] := by
  unfold initiatePayment onlyOperator at h
  simp only [bind_eq_ok, require_eq_ok] at h
  obtain ⟨_, _, _, hnone, _, _, _, hpos, ⟨_, _, _⟩, hcall, _, _, heq⟩ := h
  cases heq
  obtain ⟨t, t', ht, htransfer, rfl⟩ := callToken_ok hcall
  obtain ⟨hallowed, _, hmoved, hsupply, hlower, _, rfl⟩ := transferFrom_ok htransfer
  exact ⟨hnone, hpos, t, t', ht, hallowed, hmoved, hsupply, hlower, rfl, rfl⟩

/-- What an escrow does to the sender's allowance and balance, and to no other payment. -/
theorem initiatePayment_draws {w w' : World} {msgSender sender recipient asset : Address}
    {id : Bytes32} {amount : Uint256} {source destination : String} {logs : List Log}
    (h : initiatePayment contract w msgSender id sender recipient asset amount source destination =
      .ok (w', logs)) :
    ∃ t t' done tokenLogs, w.tokens asset = some t ∧
      t.transferFrom contract sender contract amount = .ok (t', done, tokenLogs) ∧
      w' = (w.setPayment id ⟨sender, recipient, asset, amount, .INITIATED⟩).setToken asset t' := by
  unfold initiatePayment onlyOperator at h
  simp only [bind_eq_ok, require_eq_ok] at h
  obtain ⟨_, _, _, _, _, _, _, _, ⟨_, _, _⟩, hcall, _, _, heq⟩ := h
  cases heq
  obtain ⟨t, t', ht, htransfer, rfl⟩ := callToken_ok hcall
  exact ⟨t, t', _, _, ht, htransfer, rfl⟩

/-- An escrow of something, of a new payment, that is allowed and covered goes through. -/
theorem initiatePayment_succeeds {w : World} {t : MockERC20} {msgSender sender : Address}
    (recipient : Address) {asset : Address} {id : Bytes32} {amount : Uint256}
    (source destination : String) (hop : w.storage.operators msgSender = true)
    (hnone : (w.storage.payments id).state = .NONE)
    (happroved : w.storage.approvedAssets asset = true) (hpos : 0 < amount.val)
    (ht : w.tokens asset = some t) (hsound : Sound contract t) (hsender : sender ≠ contract)
    (hallowed : amount ≤ t.allowance sender contract) (hcovered : amount ≤ t.balanceOf sender) :
    ∃ r, initiatePayment contract w msgSender id sender recipient asset amount source destination =
      .ok r := by
  obtain ⟨t', htransfer⟩ := transferFrom_succeeds hsound contract hallowed hcovered hsender
  have hcall := callToken_succeeds
    (w := w.setPayment id ⟨sender, recipient, asset, amount, .INITIATED⟩)
    (f := fun t => t.transferFrom contract sender contract amount) ht htransfer
  unfold initiatePayment onlyOperator
  rw [require_then hop, require_then hnone, require_then happroved, require_then hpos]
  show ∃ r, (World.callToken _ _ _ >>= _) = Except.ok r
  rw [hcall]
  exact ⟨_, rfl⟩

/-- A way out of escrow when it does not revert. -/
theorem release_ok {w w' : World} {msgSender : Address} {id : Bytes32} {state : PaymentState}
    {payee : EscrowPayment → Address} {failed : String}
    {events : EscrowPayment → List EscrowEvent} {logs : List Log}
    (h : release contract w msgSender id state payee failed events = .ok (w', logs)) :
    (w.storage.payments id).state = .INITIATED ∧
      ∃ t t', w.tokens (w.storage.payments id).asset = some t ∧
        Transferred t t' contract (payee (w.storage.payments id)) (w.storage.payments id).amount ∧
        t'.totalSupply = t.totalSupply ∧ t'.allowance = t.allowance ∧
        w' = (w.setPayment id { w.storage.payments id with state := state }).setToken
          (w.storage.payments id).asset t' ∧
        logs = .token (w.storage.payments id).asset (.transfer contract
            (payee (w.storage.payments id)) (w.storage.payments id).amount) ::
          (events (w.storage.payments id)).map .escrow := by
  unfold release onlyOperator at h
  simp only [bind_eq_ok, require_eq_ok] at h
  obtain ⟨_, _, _, hinit, ⟨_, _, _⟩, hcall, _, _, heq⟩ := h
  cases heq
  obtain ⟨t, t', ht, htransfer, rfl⟩ := callToken_ok hcall
  obtain ⟨_, hmoved, hsupply, hallowance, _, rfl⟩ := _transfer_ok htransfer
  exact ⟨hinit, t, t', ht, hmoved, hsupply, hallowance, rfl, rfl⟩

/-! ## What is owed and held afterwards -/

/-- An INITIATED payment ties up its amount of its own asset. -/
theorem locks_initiated {p : EscrowPayment} (h : p.state = .INITIATED) (asset : Address) :
    locks asset p = if asset = p.asset then p.amount.val else 0 := by
  unfold locks
  by_cases ha : asset = p.asset
  · rw [if_pos ⟨h, ha.symm⟩, if_pos ha]
  · rw [if_neg fun hboth => ha hboth.2.symm, if_neg ha]

/-- Any other payment ties up nothing. -/
theorem locks_other {p : EscrowPayment} (h : p.state ≠ .INITIATED) (asset : Address) :
    locks asset p = 0 := by
  unfold locks
  rw [if_neg fun hboth => h hboth.1]

/-- What is owed changes by what the payment ties up. -/
theorem owed_setPayment (w : World) (id : Bytes32) (p : EscrowPayment) (asset : Address) :
    owed (w.setPayment id p) asset + locks asset (w.storage.payments id) =
      owed w asset + locks asset p :=
  sum_update w.storage.payments (fun _ => locks asset) id p

/-- What a token holds changes nothing of what is owed. -/
theorem owed_setToken (w : World) (asset : Address) (t : MockERC20) (a : Address) :
    owed (w.setToken asset t) a = owed w a := rfl

/-- A payment's record changes nothing of what is held. -/
theorem held_setPayment (w : World) (id : Bytes32) (p : EscrowPayment) (a account : Address) :
    held (w.setPayment id p) a account = held w a account := rfl

/-- What is held of an asset is what its token says. -/
theorem held_setToken (w : World) (asset : Address) (t : MockERC20) (a account : Address) :
    held (w.setToken asset t) a account =
      if a = asset then (t.balanceOf account).val else held w a account := by
  unfold held World.setToken
  simp only [Function.update_apply]
  by_cases ha : a = asset
  · simp only [if_pos ha]
  · simp only [if_neg ha]

/-- An account holds its balance at the token. -/
theorem held_of_token {w : World} {asset : Address} {t : MockERC20} (h : w.tokens asset = some t)
    (account : Address) : held w asset account = (t.balanceOf account).val := by
  unfold held
  rw [h]

/-- Tokens stay sound when one of them is replaced by a sound one. -/
theorem sound_setToken {w : World} {asset : Address} {t : MockERC20}
    (h : ∀ a t, w.tokens a = some t → Sound contract t) (ht : Sound contract t) (a : Address)
    (t' : MockERC20) (heq : (w.setToken asset t).tokens a = some t') : Sound contract t' := by
  change Function.update w.tokens asset (some t) a = some t' at heq
  rw [Function.update_apply] at heq
  split at heq
  · cases heq
    exact ht
  · exact h a t' heq

/-- A payment record nobody touched is traced as before. -/
theorem payments_setPayment (w : World) (id other : Bytes32) (p : EscrowPayment) :
    (w.setPayment id p).storage.payments other =
      if other = id then p else w.storage.payments other :=
  Function.update_apply w.storage.payments id p other

/-! ## The calls keep it -/

/-- A call that writes one payment and one token: its own payment has to be traced, and the
contract's balance of the token to cover what is owed. The other payments are as they were. -/
theorem Kept.write {s : Ledger (machine contract)} (hs : Kept s) {c : Call contract}
    {id : Bytes32} {p : EscrowPayment} {asset : Address} {t : MockERC20} {event : TokenEvent}
    (events : List EscrowEvent) (hc : paymentOf c.request = some id) (hsound : Sound contract t)
    (hpositive : p.state = .INITIATED → 0 < p.amount.val)
    (hsolvent : ∀ a, owed (s.world.setPayment id p) a ≤
      if a = asset then (t.balanceOf contract).val else held s.world a contract)
    (htraced : Traced contract id p (⟨c.request, asset, event⟩ :: flows id s.receipts)) :
    Kept (⟨(s.world.setPayment id p).setToken asset t,
      ⟨c, .token asset event :: events.map .escrow⟩ :: s.receipts⟩ :
        Ledger (machine contract)) := by
  refine ⟨sound_setToken hs.sound hsound, fun other hinit => ?_, fun a => ?_, fun other => ?_⟩
  · change ((s.world.setPayment id _).storage.payments other).state = _ at hinit
    show 0 < ((s.world.setPayment id _).storage.payments other).amount.val
    rw [payments_setPayment] at hinit ⊢
    split
    next heq =>
      rw [if_pos heq] at hinit
      exact hpositive hinit
    next hne =>
      rw [if_neg hne] at hinit
      exact hs.positive other hinit
  · rw [owed_setToken, held_setToken, held_setPayment]
    exact hsolvent a
  · show Traced contract other ((s.world.setPayment id _).storage.payments other) _
    rw [payments_setPayment]
    by_cases heq : other = id
    · subst heq
      rw [if_pos rfl, flows_cons_one _ _ _ _ hc]
      exact htraced
    · rw [if_neg heq, flows_cons_ne]
      · exact hs.traced other
      · rw [hc]
        exact fun hsome => heq (Option.some.inj hsome).symm

/-- Initiating a payment keeps the invariant. -/
theorem Kept.initiate {s : Ledger (machine contract)} (hs : Kept s) {c : Call contract}
    {id : Bytes32} {sender recipient asset : Address} {amount : Uint256}
    {source destination : String} {w : World} {logs : List Log}
    (hc : c.request = .initiatePayment id sender recipient asset amount source destination)
    (h : initiatePayment contract s.world c.msgSender.val id sender recipient asset amount source
      destination = .ok (w, logs)) :
    Kept (⟨w, ⟨c, logs⟩ :: s.receipts⟩ : Ledger (machine contract)) := by
  obtain ⟨hnone, hpos, t, t', ht, hallowed, hmoved, hsupply, hlower, rfl, rfl⟩ :=
    initiatePayment_ok h
  have hsound := hs.sound asset t ht
  have hsender : sender ≠ contract := by
    intro heq
    rw [heq, hsound.allowance contract] at hallowed
    have hle : amount.val ≤ 0 := hallowed
    omega
  refine hs.write [.paymentInitiated id sender recipient asset amount source destination]
    (by rw [hc]; rfl) (hsound.transferred hmoved hsupply hlower) (fun _ => hpos) (fun a => ?_) ?_
  · have howed := owed_setPayment s.world id ⟨sender, recipient, asset, amount, .INITIATED⟩ a
    have hsolvent := hs.solvent a
    have hbalance := hmoved contract
    rw [if_neg hsender.symm, if_pos rfl] at hbalance
    rw [locks_other (by rw [hnone]; decide), locks_initiated rfl] at howed
    change _ = owed s.world a + (if a = asset then amount.val else 0) at howed
    by_cases ha : a = asset
    · rw [if_pos ha] at howed ⊢
      rw [ha, held_of_token ht] at hsolvent
      rw [ha] at howed ⊢
      omega
    · rw [if_neg ha] at howed ⊢
      omega
  · -- a payment that was not there before has no transfer yet
    have hflows : flows id s.receipts = [] := by
      rcases hs.traced id with ⟨_, hflows⟩ | ⟨hinit, _⟩ | ⟨_, _, ⟨_, hstate⟩, _⟩
      · exact hflows
      · exact absurd (hnone.symm.trans hinit) (by decide)
      · rw [hnone] at hstate
        rcases hstate with ⟨h, _⟩ | ⟨h, _⟩ | ⟨h, _⟩ <;> cases h
    rw [hflows]
    exact .inr (.inl ⟨rfl, _, ⟨rfl, rfl, source, destination, hc⟩, rfl⟩)

/-- One lemma for the three ways out: `hout` says the call at hand pays out as its state says. -/
theorem Kept.release {s : Ledger (machine contract)} (hs : Kept s) {c : Call contract}
    {id : Bytes32} {state : PaymentState} {payee : EscrowPayment → Address} {failed : String}
    {events : EscrowPayment → List EscrowEvent} {w : World} {logs : List Log}
    (hc : paymentOf c.request = some id) (hstate : state ≠ .INITIATED)
    (hout : ∀ p : EscrowPayment, p.state = .INITIATED →
      PaidOut contract id { p with state := state }
      ⟨c.request, p.asset, .transfer contract (payee p) p.amount⟩)
    (h : Escrow.release contract s.world c.msgSender.val id state payee failed events =
      .ok (w, logs)) :
    Kept (⟨w, ⟨c, logs⟩ :: s.receipts⟩ : Ledger (machine contract)) := by
  obtain ⟨hinit, t, t', ht, hmoved, hsupply, hallowance, rfl, rfl⟩ := release_ok h
  have hsound := hs.sound _ t ht
  have hpaid := hout (s.world.storage.payments id) hinit
  have htrace := hs.traced id
  have howed := owed_setPayment s.world id { s.world.storage.payments id with state := state }
  generalize hp : s.world.storage.payments id = p at *
  refine hs.write _ hc (hsound.transferred hmoved hsupply fun _ _ => hallowance ▸ le_refl _)
    (fun hopen => absurd hopen hstate) (fun a => ?_) ?_
  · have hsolvent := hs.solvent a
    have hbalance := hmoved contract
    have howed := howed a
    rw [if_pos rfl] at hbalance
    rw [locks_initiated hinit, locks_other hstate] at howed
    by_cases ha : a = p.asset
    · rw [if_pos ha] at howed ⊢
      rw [ha, held_of_token ht] at hsolvent
      rw [ha] at howed ⊢
      omega
    · rw [if_neg ha] at howed ⊢
      omega
  · -- an INITIATED payment has been taken in, and not been paid out
    rcases htrace with ⟨hnone, _⟩ | ⟨_, f, htaken, hflows⟩ | ⟨_, _, ⟨_, hdone⟩, _⟩
    · exact absurd (hinit.symm.trans hnone) (by decide)
    · exact .inr (.inr ⟨_, f, hpaid, htaken, by rw [hflows]⟩)
    · rw [hinit] at hdone
      rcases hdone with ⟨h, _⟩ | ⟨h, _⟩ | ⟨h, _⟩ <;> cases h

/-- A reverted call. -/
theorem Kept.reverted {s : Ledger (machine contract)} (hs : Kept s) (c : Call contract) :
    Kept (⟨s.world, ⟨c, []⟩ :: s.receipts⟩ : Ledger (machine contract)) where
  sound := hs.sound
  positive := hs.positive
  solvent := hs.solvent
  traced := by
    intro id
    rw [flows_cons_reverted]
    exact hs.traced id

/-- A call that leaves the payments alone and takes nothing from the contract. -/
theorem Kept.aside {s : Ledger (machine contract)} (hs : Kept s) {c : Call contract} {w : World}
    {logs : List Log} (hc : paymentOf c.request = none)
    (hpayments : w.storage.payments = s.world.storage.payments)
    (hsound : ∀ asset t, w.tokens asset = some t → Sound contract t)
    (hheld : ∀ asset, held s.world asset contract ≤ held w asset contract) :
    Kept (⟨w, ⟨c, logs⟩ :: s.receipts⟩ : Ledger (machine contract)) where
  sound := hsound
  positive := by
    intro id
    show (w.storage.payments id).state = _ → _
    rw [hpayments]
    exact hs.positive id
  solvent := by
    intro asset
    have howed : owed w asset = owed s.world asset := by
      unfold owed
      rw [hpayments]
    show owed w asset ≤ held w asset contract
    rw [howed]
    exact le_trans (hs.solvent asset) (hheld asset)
  traced := by
    intro id
    show Traced contract id (w.storage.payments id) _
    rw [hpayments, flows_cons_ne]
    · exact hs.traced id
    · rw [hc]
      simp

/-- Calls that name no payment leave the payments alone, keep every token sound and take
nothing from the contract. -/
theorem exec_aside {w w' : World} {c : Call contract} {logs : List Log}
    (hsound : ∀ asset t, w.tokens asset = some t → Sound contract t)
    (hc : paymentOf c.request = none) (h : exec contract w c = .ok (w', logs)) :
    w'.storage.payments = w.storage.payments ∧
      (∀ asset t, w'.tokens asset = some t → Sound contract t) ∧
      ∀ asset, held w asset contract ≤ held w' asset contract := by
  obtain ⟨msgSender, request⟩ := c
  cases request with
  | setOperator operator enabled =>
    simp only [exec, setOperator, bind_eq_ok] at h
    obtain ⟨_, _, heq⟩ := h
    cases heq
    exact ⟨rfl, hsound, fun _ => le_refl _⟩
  | setApprovedAsset asset enabled =>
    simp only [exec, setApprovedAsset, bind_eq_ok] at h
    obtain ⟨_, _, heq⟩ := h
    cases heq
    exact ⟨rfl, hsound, fun _ => le_refl _⟩
  | token asset request =>
    simp only [exec, bind_eq_ok] at h
    obtain ⟨⟨_, _⟩, hcall, heq⟩ := h
    cases heq
    obtain ⟨t, t', ht, hserve, rfl⟩ := callToken_ok hcall
    obtain ⟨hsound', hle⟩ := serve_ok (hsound asset t ht) msgSender.property hserve
    refine ⟨rfl, sound_setToken hsound hsound', ?_⟩
    intro a
    rw [held_setToken]
    split
    next ha =>
      rw [ha, held_of_token ht]
      exact hle
    next => exact le_refl _
  | deployToken asset =>
    simp only [exec, bind_eq_ok, require_eq_ok] at h
    obtain ⟨_, ⟨_, hnew⟩, heq⟩ := h
    cases heq
    refine ⟨rfl, sound_setToken hsound (sound_deployed contract), ?_⟩
    intro a
    rw [held_setToken]
    split
    next ha =>
      unfold held
      rw [ha, hnew]
      exact Nat.zero_le _
    next => exact le_refl _
  | initiatePayment => cases hc
  | settlePayment => cases hc
  | cancelPayment => cases hc
  | failAndRefund => cases hc

/-- Every executed call keeps it. -/
theorem Kept.exec {s : Ledger (machine contract)} (hs : Kept s) {c : Call contract} {w : World}
    {logs : List Log} (h : Escrow.exec contract s.world c = .ok (w, logs)) :
    Kept (⟨w, ⟨c, logs⟩ :: s.receipts⟩ : Ledger (machine contract)) := by
  by_cases hnone : paymentOf c.request = none
  · obtain ⟨hpayments, hsound, hheld⟩ := exec_aside hs.sound hnone h
    exact hs.aside hnone hpayments hsound hheld
  cases hc : c.request with
  | initiatePayment id sender recipient asset amount source destination =>
    unfold Escrow.exec at h
    rw [hc] at h
    exact hs.initiate hc h
  | settlePayment id routeId releaseTo settledAmount destinationAsset =>
    unfold Escrow.exec at h
    rw [hc] at h
    refine hs.release (by rw [hc]; rfl) (by decide) ?_ h
    intro p _
    exact ⟨rfl, Or.inl ⟨rfl, routeId, releaseTo, settledAmount, destinationAsset, hc, rfl⟩⟩
  | cancelPayment id =>
    unfold Escrow.exec at h
    rw [hc] at h
    refine hs.release (by rw [hc]; rfl) (by decide) ?_ h
    intro p _
    exact ⟨rfl, Or.inr (Or.inl ⟨rfl, hc, rfl⟩)⟩
  | failAndRefund id reason =>
    unfold Escrow.exec at h
    rw [hc] at h
    refine hs.release (by rw [hc]; rfl) (by decide) ?_ h
    intro p _
    exact ⟨rfl, Or.inr (Or.inr ⟨rfl, reason, hc, rfl⟩)⟩
  | setOperator | setApprovedAsset | token | deployToken =>
    exact absurd (by rw [hc]; rfl) hnone

/-- It holds when the contract is deployed. -/
theorem kept_deployed (contract deployer : Address) :
    Kept (⟨deployed deployer, []⟩ : Ledger (machine contract)) where
  sound := by
    intro asset t h
    cases h
  positive := by
    intro id h
    cases h
  solvent := by
    intro asset
    show ∑ _ : Bytes32, locks asset noPayment ≤ _
    rw [locks_other (by decide), Finset.sum_const_zero]
    exact Nat.zero_le _
  traced := fun id => Or.inl ⟨rfl, rfl⟩

/-- Every history keeps it. -/
theorem kept_history (contract deployer : Address) (calls : List (Call contract)) :
    Kept (history contract deployer calls) :=
  Ledger.run_induct (P := Kept) (kept_deployed contract deployer)
    (fun _ _ _ _ hs h => hs.exec h) (fun _ c hs => hs.reverted c) calls

/-! ## The ways out never fail for lack of tokens -/

/-- An operator's way out of an INITIATED payment goes through. -/
theorem Kept.release_succeeds {s : Ledger (machine contract)} (hs : Kept s) {msgSender : Address}
    {id : Bytes32} (hop : s.world.storage.operators msgSender = true)
    (hinit : (s.world.storage.payments id).state = .INITIATED) (state : PaymentState)
    (payee : EscrowPayment → Address) (failed : String)
    (events : EscrowPayment → List EscrowEvent) :
    ∃ r, Escrow.release contract s.world msgSender id state payee failed events = .ok r := by
  have hpos := hs.positive id hinit
  have hlocked : locks (s.world.storage.payments id).asset (s.world.storage.payments id) =
      (s.world.storage.payments id).amount.val := by
    rw [locks_initiated hinit, if_pos rfl]
  have hcover : (s.world.storage.payments id).amount.val ≤
      held s.world (s.world.storage.payments id).asset contract :=
    calc (s.world.storage.payments id).amount.val
        = locks (s.world.storage.payments id).asset (s.world.storage.payments id) := hlocked.symm
      _ ≤ owed s.world (s.world.storage.payments id).asset := le_sum_entry
          (fun i => locks (s.world.storage.payments id).asset (s.world.storage.payments i)) id
      _ ≤ held s.world (s.world.storage.payments id).asset contract := hs.solvent _
  obtain ⟨t, ht⟩ : ∃ t, s.world.tokens (s.world.storage.payments id).asset = some t := by
    unfold held at hcover
    split at hcover
    next t heq => exact ⟨t, heq⟩
    next => omega
  rw [held_of_token ht] at hcover
  obtain ⟨t', htransfer⟩ := _transfer_succeeds (hs.sound _ t ht)
    (payee (s.world.storage.payments id)) hcover
  have hcall := callToken_succeeds
    (w := s.world.setPayment id { s.world.storage.payments id with state := state })
    (f := fun t => t.transfer contract (payee (s.world.storage.payments id))
      (s.world.storage.payments id).amount) ht htransfer
  unfold Escrow.release onlyOperator
  rw [require_then hop, require_then hinit]
  show ∃ r, (World.callToken _ _ _ >>= _) = Except.ok r
  rw [hcall]
  exact ⟨_, rfl⟩

/-- An operator can let any INITIATED payment out. -/
theorem Kept.letsOut_succeeds {s : Ledger (machine contract)} (hs : Kept s) {c : Call contract}
    {id : Bytes32} (hout : LetsOut id c.request)
    (hop : s.world.storage.operators c.msgSender.val = true)
    (hinit : (s.world.storage.payments id).state = .INITIATED) :
    ∃ r, Escrow.exec contract s.world c = .ok r := by
  obtain ⟨msgSender, request⟩ := c
  cases request with
  | settlePayment paymentId routeId releaseTo settledAmount destinationAsset =>
    obtain rfl : paymentId = id := hout
    exact hs.release_succeeds hop hinit .SETTLED (fun _ => releaseTo) "release transfer failed"
      fun _ => [.paymentSettled paymentId routeId settledAmount destinationAsset]
  | cancelPayment paymentId =>
    obtain rfl : paymentId = id := hout
    exact hs.release_succeeds hop hinit .CANCELLED (fun p => p.sender) "cancel refund failed"
      fun _ => [.paymentCancelled paymentId]
  | failAndRefund paymentId reason =>
    obtain rfl : paymentId = id := hout
    exact hs.release_succeeds hop hinit .REFUNDED (fun p => p.sender) "refund failed"
      fun p => [.paymentFailed paymentId reason, .paymentRefunded paymentId p.sender p.amount]
  | initiatePayment | setOperator | setApprovedAsset | token | deployToken => exact hout.elim

end SettlementOS.Analysis
