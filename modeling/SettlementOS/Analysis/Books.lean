import SettlementOS.Analysis.Escrow
import SettlementOS.Computation.Replay

/-!
# What the logs of the escrow contract tell

`Books` is what a reader of the logs keeps of the contract and its tokens: who is an operator, which
assets are approved, the payments, and who holds what. A reader takes no log at its word: a payment
is opened once, by the transfer that took its amount in, and closed once, by the transfer of that
amount to the address its event stands for. The contract's own logs are always read to the end, and
the books are its storage.

Nothing is kept of the zero address: a transfer from it and a minting look the same.
-/

set_option autoImplicit false

namespace SettlementOS.Analysis

open SettlementOS.Computation SettlementOS.Contracts SettlementOS.Contracts.Escrow

/-! ## Tokens -/

/-- The address that mints. -/
def zeroAddress : Address := Address.ofNat 0

/-- `amount` more is held by an account. -/
def deposit (holdings : Address → ℕ) (account : Address) (amount : ℕ) : Address → ℕ :=
  Function.update holdings account (holdings account + amount)

/-- What a token's event changes of the holdings. -/
def readToken (holdings : Address → ℕ) : TokenEvent → Option (Address → ℕ)
  | .transfer src dst value =>
    if src = zeroAddress then some (deposit holdings dst value.val)
    else if value.val ≤ holdings src then
      some (deposit (Function.update holdings src (holdings src - value.val)) dst value.val)
    else none
  | .approval _ _ _ => some holdings

/-- The holdings are the balances, but for the zero address. -/
def Holds (holdings : Address → ℕ) (t : MockERC20) : Prop :=
  ∀ a, a ≠ zeroAddress → holdings a = (t.balanceOf a).val

variable {holdings : Address → ℕ} {t t' : MockERC20}

/-- A transfer that went through is read, and the holdings agree. -/
theorem Holds.transferred (h : Holds holdings t) {src dst : Address} {amount : Uint256}
    (hle : amount ≤ t.balanceOf src) (hmoved : Transferred t t' src dst amount) :
    ∃ holdings', readToken holdings (.transfer src dst amount) = some holdings' ∧
      Holds holdings' t' := by
  by_cases hsrc : src = zeroAddress
  · refine ⟨_, if_pos hsrc, fun a ha => ?_⟩
    have hbalance := hmoved a
    rw [if_neg (hsrc ▸ ha)] at hbalance
    simp only [deposit, Function.update_apply]
    by_cases hd : a = dst
    · subst hd
      rw [if_pos rfl, h a ha]
      rw [if_pos rfl] at hbalance
      omega
    · rw [if_neg hd, h a ha]
      rw [if_neg hd] at hbalance
      omega
  · have hcovered : amount.val ≤ holdings src := by
      rw [h src hsrc]
      exact hle
    refine ⟨_, (if_neg hsrc).trans (if_pos hcovered), fun a ha => ?_⟩
    have hbalance := hmoved a
    have hsame := h a ha
    simp only [deposit, Function.update_apply]
    by_cases hd : a = dst <;> by_cases hs : a = src
    · subst hd hs
      simp only [if_true] at hbalance ⊢
      omega
    · subst hd
      simp only [if_true, if_neg hs] at hbalance ⊢
      omega
    · subst hs
      simp only [if_true, if_neg hd] at hbalance ⊢
      omega
    · simp only [if_neg hd, if_neg hs] at hbalance ⊢
      omega

/-- Minting is logged as a transfer from nobody. -/
theorem mint_logs {dst : Address} {amount : Uint256} {logs : List TokenEvent}
    (h : t.mint dst amount = .ok (t', logs)) : logs = [.transfer zeroAddress dst amount] := by
  unfold MockERC20.mint at h
  simp only [bind_eq_ok] at h
  obtain ⟨_, _, _, _, heq⟩ := h
  cases heq
  rfl

/-- Minted tokens are held. -/
theorem Holds.mint (h : Holds holdings t) {dst : Address} {amount : Uint256}
    {logs : List TokenEvent} (hmint : t.mint dst amount = .ok (t', logs)) :
    Holds (deposit holdings dst amount.val) t' := by
  obtain ⟨_, hbalance, _⟩ := mint_ok hmint
  intro a ha
  rw [hbalance a, deposit, Function.update_apply]
  by_cases hd : a = dst
  · subst hd
    rw [if_pos rfl, if_pos rfl, h a ha]
  · rw [if_neg hd, if_neg hd, h a ha]
    rfl

/-- Whatever is asked of a token, what it emits tells what has become of the balances. -/
theorem Holds.serve (h : Holds holdings t) {msgSender : Address} {request : MockERC20.Request}
    {logs : List TokenEvent} (hserve : t.serve msgSender request = .ok (t', logs)) :
    ∃ holdings', logs.foldlM readToken holdings = some holdings' ∧ Holds holdings' t' := by
  cases request with
  | mint dst amount =>
    obtain rfl := mint_logs hserve
    exact ⟨_, rfl, h.mint hserve⟩
  | transfer dst amount =>
    simp only [MockERC20.serve, MockERC20.transfer, bind_eq_ok] at hserve
    obtain ⟨⟨_, _, _⟩, htransfer, heq⟩ := hserve
    cases heq
    obtain ⟨hle, hmoved, _, _, _, rfl⟩ := _transfer_ok htransfer
    obtain ⟨holdings', hread, hholds⟩ := h.transferred hle hmoved
    exact ⟨holdings', by rw [List.foldlM_cons, hread]; rfl, hholds⟩
  | approve spender amount =>
    cases hserve
    exact ⟨holdings, rfl, h⟩
  | transferFrom src dst amount =>
    simp only [MockERC20.serve, bind_eq_ok] at hserve
    obtain ⟨⟨_, _, _⟩, htransfer, heq⟩ := hserve
    cases heq
    obtain ⟨_, hle, hmoved, _, _, _, rfl⟩ := transferFrom_ok htransfer
    obtain ⟨holdings', hread, hholds⟩ := h.transferred hle hmoved
    exact ⟨holdings', by rw [List.foldlM_cons, hread]; rfl, hholds⟩

/-! ## The books of the escrow -/

/-- What a reader of the logs knows. -/
structure Books where
  operators : Address → Bool
  approvedAssets : Address → Bool
  payments : Bytes32 → EscrowPayment
  /-- who holds what of each token -/
  holdings : Address → Address → ℕ
  /-- the log read last -/
  last : Option Log

namespace Books

/-- Before the first log. -/
def blank : Books where
  operators := fun _ => false
  approvedAssets := fun _ => false
  payments := fun _ => noPayment
  holdings := fun _ _ => 0
  last := none

/-- `payments[id] = p` -/
def enter (b : Books) (id : Bytes32) (p : EscrowPayment) : Books :=
  { b with payments := Function.update b.payments id p }

/-- Where the transfer read last took a payment's amount, when it did. -/
def releasedTo (contract : Address) (b : Books) (p : EscrowPayment) : Option Address :=
  match b.last with
  | some (.token asset (.transfer src dst value)) =>
    if asset = p.asset ∧ src = contract ∧ value = p.amount then some dst else none
  | _ => none

/-- What the contract's own event changes of the books, when it fits them. -/
def readEvent (contract : Address) (b : Books) : EscrowEvent → Option Books
  | .operatorSet operator enabled =>
    some { b with operators := Function.update b.operators operator enabled }
  | .assetApproved asset enabled =>
    some { b with approvedAssets := Function.update b.approvedAssets asset enabled }
  | .paymentInitiated id sender recipient asset amount _ _ =>
    if (b.payments id).state = .NONE ∧ b.approvedAssets asset = true ∧ 0 < amount.val ∧
        b.last = some (.token asset (.transfer sender contract amount)) then
      some (b.enter id ⟨sender, recipient, asset, amount, .INITIATED⟩)
    else none
  | .paymentSettled id _ _ _ =>
    if (b.payments id).state = .INITIATED ∧ (b.releasedTo contract (b.payments id)).isSome then
      some (b.enter id { b.payments id with state := .SETTLED })
    else none
  | .paymentCancelled id =>
    if (b.payments id).state = .INITIATED ∧
        b.releasedTo contract (b.payments id) = some (b.payments id).sender then
      some (b.enter id { b.payments id with state := .CANCELLED })
    else none
  | .paymentFailed id _ =>
    if (b.payments id).state = .INITIATED ∧
        b.releasedTo contract (b.payments id) = some (b.payments id).sender then some b
    else none
  | .paymentRefunded id refundedTo amount =>
    -- its failure was read just before, and the transfer before that
    match b.last with
    | some (.escrow (.paymentFailed failed _)) =>
      if failed = id ∧ refundedTo = (b.payments id).sender ∧ amount = (b.payments id).amount then
        some (b.enter id { b.payments id with state := .REFUNDED })
      else none
    | _ => none

/-- What a log changes of the books, when it fits them. -/
def read (contract : Address) (b : Books) (log : Log) : Option Books :=
  match log with
  | .token asset event => (readToken (b.holdings asset) event).map fun holdings =>
      { b with holdings := Function.update b.holdings asset holdings, last := some log }
  | .escrow event => (b.readEvent contract event).map fun b => { b with last := some log }

/-- The books are the storage of the contract and the balances of its tokens. -/
structure Agree (b : Books) (w : World) : Prop where
  operators : b.operators = w.storage.operators
  approvedAssets : b.approvedAssets = w.storage.approvedAssets
  payments : b.payments = w.storage.payments
  holdings : ∀ asset a, a ≠ zeroAddress → b.holdings asset a = held w asset a

end Books

variable {contract : Address} {b : Books} {w w' : World}

namespace Books

/-- What a token is asked is read off what it emits. -/
theorem readAll_token (contract : Address) {asset : Address} {logs : List TokenEvent}
    {after : Address → ℕ}
    (h : logs.foldlM readToken (b.holdings asset) = some after) :
    ∃ last, (logs.map (Log.token asset)).foldlM (read contract) b =
      some { b with holdings := Function.update b.holdings asset after, last := last } := by
  induction logs generalizing b with
  | nil =>
    obtain rfl := Option.some.inj h
    exact ⟨b.last, by rw [Function.update_eq_self]; rfl⟩
  | cons event logs ih =>
    rw [List.foldlM_cons] at h
    obtain ⟨holdings, hfirst, hrest⟩ := Option.bind_eq_some_iff.mp h
    have hnext : (Function.update b.holdings asset holdings) asset = holdings :=
      Function.update_self asset holdings b.holdings
    obtain ⟨last, hall⟩ := ih (b := { b with
        holdings := Function.update b.holdings asset holdings
        last := some (.token asset event) }) (by
      show List.foldlM readToken (Function.update b.holdings asset holdings asset) logs = _
      rw [hnext]
      exact hrest)
    refine ⟨last, ?_⟩
    rw [List.map_cons, List.foldlM_cons, read, hfirst]
    refine hall.trans ?_
    simp only [Function.update_idem]

/-- The token at an address is another, and the books follow. -/
theorem Agree.setToken (h : b.Agree w) {asset : Address} {after : Address → ℕ}
    {l : Option Log} (hafter : Holds after t') :
    ({ b with holdings := Function.update b.holdings asset after, last := l } : Books).Agree
      (w.setToken asset t') where
  operators := h.operators
  approvedAssets := h.approvedAssets
  payments := h.payments
  holdings := by
    intro other a ha
    rw [held_setToken]
    by_cases ho : other = asset
    · subst ho
      rw [if_pos rfl]
      exact (congrFun (Function.update_self other after b.holdings) a).trans (hafter a ha)
    · rw [if_neg ho]
      exact (congrFun (Function.update_of_ne ho after b.holdings) a).trans (h.holdings other a ha)

/-- The holdings of a token that is there. -/
theorem Agree.holds (h : b.Agree w) {asset : Address} (ht : w.tokens asset = some t) :
    Holds (b.holdings asset) t := fun a ha => by
  rw [h.holdings asset a ha, held_of_token ht]

/-- A payment that is entered agrees on both sides. -/
theorem Agree.enter (h : b.Agree w) (id : Bytes32) (p : EscrowPayment) :
    (b.enter id p).Agree (w.setPayment id p) where
  operators := h.operators
  approvedAssets := h.approvedAssets
  payments := by
    show Function.update b.payments id p = Function.update w.storage.payments id p
    rw [h.payments]
  holdings := h.holdings

/-- The transfer of a payment's amount has been read. -/
theorem releasedTo_transfer (p : EscrowPayment) (dst : Address)
    (h : b.last = some (.token p.asset (.transfer contract dst p.amount))) :
    b.releasedTo contract p = some dst := by
  rw [releasedTo, h]
  exact if_pos ⟨rfl, rfl, rfl⟩

end Books

/-! ## What calls emit -/

/-- Only an approved asset is taken in. -/
theorem initiatePayment_approved {msgSender sender recipient asset : Address} {id : Bytes32}
    {amount : Uint256} {source destination : String} {logs : List Log}
    (h : initiatePayment contract w msgSender id sender recipient asset amount source destination =
      .ok (w', logs)) : w.storage.approvedAssets asset = true := by
  unfold initiatePayment onlyOperator at h
  simp only [bind_eq_ok, require_eq_ok] at h
  obtain ⟨_, _, _, _, _, happroved, _⟩ := h
  exact happroved

/-- What a way out of escrow does to the contract's tokens. -/
theorem release_pays {msgSender : Address} {id : Bytes32} {state : PaymentState}
    {payee : EscrowPayment → Address} {failed : String}
    {events : EscrowPayment → List EscrowEvent} {logs : List Log}
    (h : release contract w msgSender id state payee failed events = .ok (w', logs)) :
    ∃ t t' done tokenLogs, w.tokens (w.storage.payments id).asset = some t ∧
      t.transfer contract (payee (w.storage.payments id)) (w.storage.payments id).amount =
        .ok (t', done, tokenLogs) ∧
      w' = (w.setPayment id { w.storage.payments id with state := state }).setToken
        (w.storage.payments id).asset t' := by
  unfold release onlyOperator at h
  simp only [bind_eq_ok, require_eq_ok] at h
  obtain ⟨_, _, _, _, ⟨_, _, _⟩, hcall, _, _, heq⟩ := h
  cases heq
  obtain ⟨t, t', ht, htransfer, rfl⟩ := callToken_ok hcall
  exact ⟨t, t', _, _, ht, htransfer, rfl⟩

namespace Books

/-- The logs are read to the end, and the books agree with the world after the call. -/
def Follows (contract : Address) (b : Books) (logs : List Log) (w : World) : Prop :=
  ∃ b' : Books, logs.foldlM (read contract) b = some b' ∧ b'.Agree w

/-- An escrow opens a payment in the books. -/
theorem Agree.initiate (h : b.Agree w) {msgSender sender recipient asset : Address} {id : Bytes32}
    {amount : Uint256} {source destination : String} {logs : List Log}
    (hexec : initiatePayment contract w msgSender id sender recipient asset amount source
      destination = .ok (w', logs)) : b.Follows contract logs w' := by
  have happroved := initiatePayment_approved hexec
  obtain ⟨hnone, hpos, _, _, _, _, _, _, _, _, hlogs⟩ := initiatePayment_ok hexec
  obtain ⟨t, t', _, _, ht, hdrawn, rfl⟩ := initiatePayment_draws hexec
  obtain ⟨_, hcovered, hmoved, _⟩ := transferFrom_ok hdrawn
  obtain ⟨after, hread, hafter⟩ := (h.holds ht).transferred hcovered hmoved
  have hfits : (b.payments id).state = .NONE ∧ b.approvedAssets asset = true ∧ 0 < amount.val :=
    ⟨h.payments ▸ hnone, h.approvedAssets ▸ happroved, hpos⟩
  refine ⟨_, ?_, ((h.enter id ⟨sender, recipient, asset, amount, .INITIATED⟩).setToken
    hafter (l := ?_))⟩
  · rw [hlogs, List.foldlM_cons, read, hread]
    show Option.bind (some _) _ = _
    rw [Option.bind_some, List.foldlM_cons, read, readEvent, if_pos]
    · rfl
    · exact ⟨hfits.1, hfits.2.1, hfits.2.2, rfl⟩

/-- A way out of escrow: whoever reads the transfer goes on to read the events, which close the
payment. -/
theorem Agree.release (h : b.Agree w) {msgSender : Address} {id : Bytes32} {state : PaymentState}
    {payee : EscrowPayment → Address} {failed : String} {events : EscrowPayment → List EscrowEvent}
    {logs : List Log}
    (hexec : release contract w msgSender id state payee failed events = .ok (w', logs))
    (hevents : ∀ b₁ : Books, b₁.payments = b.payments → (b.payments id).state = .INITIATED →
      b₁.releasedTo contract (b.payments id) = some (payee (b.payments id)) →
      ∃ last, ((events (b.payments id)).map Log.escrow).foldlM (read contract) b₁ =
        some { b₁.enter id { b.payments id with state := state } with last := last }) :
    b.Follows contract logs w' := by
  obtain ⟨hinit, _, _, _, _, _, _, _, rfl⟩ := release_ok hexec
  obtain ⟨t, t', _, _, ht, hpaid, rfl⟩ := release_pays hexec
  obtain ⟨hcovered, hmoved, _⟩ := _transfer_ok hpaid
  obtain ⟨after, hread, hafter⟩ := (h.holds ht).transferred hcovered hmoved
  rw [← h.payments] at hinit hread ⊢
  obtain ⟨last, hall⟩ := hevents { b with
      holdings := Function.update b.holdings (b.payments id).asset after
      last := some (.token (b.payments id).asset (.transfer contract (payee (b.payments id))
        (b.payments id).amount)) } rfl hinit (releasedTo_transfer _ _ rfl)
  refine ⟨_, ?_, (h.enter id { b.payments id with state := state }).setToken hafter (l := last)⟩
  rw [List.foldlM_cons, read, hread]
  exact hall

/-- The event of a settlement or a cancellation closes the payment. -/
theorem readAll_one {b₁ : Books} {event : EscrowEvent} {id : Bytes32} {p : EscrowPayment}
    (h : b₁.readEvent contract event = some (b₁.enter id p)) :
    ∃ last, (([event] : List EscrowEvent).map Log.escrow).foldlM (read contract) b₁ =
      some { b₁.enter id p with last := last } := by
  refine ⟨some (.escrow event), ?_⟩
  rw [List.map_cons, List.foldlM_cons, read, h]
  rfl

/-- A settlement, to whatever address. -/
theorem Agree.settle (h : b.Agree w) {msgSender releaseTo : Address} {id routeId : Bytes32}
    {settledAmount : Uint256} {destinationAsset : String} {logs : List Log}
    (hexec : settlePayment contract w msgSender id routeId releaseTo settledAmount
      destinationAsset = .ok (w', logs)) : b.Follows contract logs w' := by
  unfold settlePayment at hexec
  refine h.release hexec fun b₁ hpayments hinit hreleased => readAll_one ?_
  rw [readEvent, hpayments, hreleased]
  exact if_pos ⟨hinit, rfl⟩

/-- A cancellation, to the sender. -/
theorem Agree.cancel (h : b.Agree w) {msgSender : Address} {id : Bytes32} {logs : List Log}
    (hexec : cancelPayment contract w msgSender id = .ok (w', logs)) :
    b.Follows contract logs w' := by
  unfold cancelPayment at hexec
  refine h.release hexec fun b₁ hpayments hinit hreleased => readAll_one ?_
  rw [readEvent, hpayments, hreleased]
  exact if_pos ⟨hinit, rfl⟩

/-- A refund: its failure is read before it. -/
theorem Agree.refund (h : b.Agree w) {msgSender : Address} {id : Bytes32} {reason : String}
    {logs : List Log} (hexec : failAndRefund contract w msgSender id reason = .ok (w', logs)) :
    b.Follows contract logs w' := by
  unfold failAndRefund at hexec
  refine h.release hexec fun b₁ hpayments hinit hreleased => ?_
  have hfailed : b₁.readEvent contract (.paymentFailed id reason) = some b₁ := by
    rw [readEvent, hpayments, hreleased]
    exact if_pos ⟨hinit, rfl⟩
  have hrefunded : ({ b₁ with last := some (.escrow (.paymentFailed id reason)) } : Books).readEvent
      contract (.paymentRefunded id (b.payments id).sender (b.payments id).amount) =
        some (({ b₁ with last := some (.escrow (.paymentFailed id reason)) } : Books).enter id
          { b.payments id with state := .REFUNDED }) := by
    rw [← hpayments]
    exact if_pos ⟨rfl, rfl, rfl⟩
  obtain ⟨last, hlast⟩ := readAll_one hrefunded
  refine ⟨last, ?_⟩
  rw [List.map_cons, List.foldlM_cons, read, hfailed]
  exact hlast

/-- **Replay.** Whatever call goes through, its logs are read, and the books agree. -/
theorem replays (contract : Address) :
    Replays (machine contract) (read contract) Agree := by
  rintro w b ⟨msgSender, request⟩ w' logs h hexec
  cases request with
  | setOperator operator enabled =>
    simp only [Escrow.exec, setOperator, bind_eq_ok] at hexec
    obtain ⟨_, _, heq⟩ := hexec
    cases heq
    refine ⟨_, rfl, ?_, h.approvedAssets, h.payments, h.holdings⟩
    show Function.update b.operators operator enabled = _
    rw [h.operators]
  | setApprovedAsset asset enabled =>
    simp only [Escrow.exec, setApprovedAsset, bind_eq_ok] at hexec
    obtain ⟨_, _, heq⟩ := hexec
    cases heq
    refine ⟨_, rfl, h.operators, ?_, h.payments, h.holdings⟩
    show Function.update b.approvedAssets asset enabled = _
    rw [h.approvedAssets]
  | initiatePayment id sender recipient asset amount source destination => exact h.initiate hexec
  | settlePayment id routeId releaseTo settledAmount destinationAsset => exact h.settle hexec
  | cancelPayment id => exact h.cancel hexec
  | failAndRefund id reason => exact h.refund hexec
  | token asset request =>
    simp only [Escrow.exec, bind_eq_ok] at hexec
    obtain ⟨⟨_, tokenLogs⟩, hcall, heq⟩ := hexec
    cases heq
    obtain ⟨t, t', ht, hserve, rfl⟩ := callToken_ok hcall
    obtain ⟨after, hread, hafter⟩ := (h.holds ht).serve hserve
    obtain ⟨last, hall⟩ := readAll_token contract hread
    exact ⟨_, hall, h.setToken hafter⟩
  | deployToken asset =>
    simp only [Escrow.exec, bind_eq_ok, require_eq_ok] at hexec
    obtain ⟨_, ⟨_, hnew⟩, heq⟩ := hexec
    cases heq
    refine ⟨b, rfl, h.operators, h.approvedAssets, h.payments, fun other a ha => ?_⟩
    rw [held_setToken]
    by_cases ho : other = asset
    · subst ho
      rw [if_pos rfl, h.holdings other a ha, held, hnew]
      rfl
    · rw [if_neg ho]
      exact h.holdings other a ha

end Books

end SettlementOS.Analysis
