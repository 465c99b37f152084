import SettlementOS.Analysis.Books
import SettlementOS.Analysis.Fund

/-!
# What the logs of the fund tell

A reader of the fund's logs knows its operators, its index, its shares and who holds what of its
asset, and can price every subscription and redemption: the shares that were minted and the asset
that was paid are what the index read so far makes of them, and both went with a transfer.
-/

set_option autoImplicit false

namespace SettlementOS.Analysis

open SettlementOS.Computation SettlementOS.Contracts SettlementOS.Contracts.Fund

/-- What a reader of the fund's logs knows. -/
structure FundBooks where
  operators : Address → Bool
  currentIndex : ℕ
  totalShares : ℕ
  sharesOf : Address → ℕ
  /-- who holds what of the asset -/
  holdings : Address → ℕ
  /-- the log read last -/
  last : Option Log

namespace FundBooks

/-- Before the first log. -/
def blank : FundBooks where
  operators := fun _ => false
  currentIndex := INDEX_SCALE.val
  totalShares := 0
  sharesOf := fun _ => 0
  holdings := fun _ => 0
  last := none

/-- What the fund's own event changes of the books, when it fits them. -/
def readEvent (contract : Address) (b : FundBooks) : FundEvent → Option FundBooks
  | .operatorSet operator enabled =>
    some { b with operators := Function.update b.operators operator enabled }
  | .subscribed account assetAmount shares =>
    if b.last = some (.token (.transfer account contract assetAmount)) ∧ account ≠ zeroAddress ∧
        0 < shares.val ∧ shares.val = assetAmount.val * INDEX_SCALE.val / b.currentIndex then
      some { b with
        totalShares := b.totalShares + shares.val
        sharesOf := deposit b.sharesOf account shares.val }
    else none
  | .redeemed account shares assetAmount =>
    if b.last = some (.token (.transfer contract account assetAmount)) ∧ 0 < shares.val ∧
        shares.val ≤ b.sharesOf account ∧
        assetAmount.val = shares.val * b.currentIndex / INDEX_SCALE.val then
      some { b with
        totalShares := b.totalShares - shares.val
        sharesOf := Function.update b.sharesOf account (b.sharesOf account - shares.val) }
    else none
  | .accrued oldIndex newIndex =>
    if oldIndex.val = b.currentIndex ∧ oldIndex ≤ newIndex then
      some { b with currentIndex := newIndex.val }
    else none

/-- What a log changes of the books, when it fits them. -/
def read (contract : Address) (b : FundBooks) (log : Log) : Option FundBooks :=
  match log with
  | .token event => (readToken b.holdings event).map fun holdings =>
      { b with holdings := holdings, last := some log }
  | .fund event => (b.readEvent contract event).map fun b => { b with last := some log }

/-- The books are the storage of the fund and the balances of its asset. -/
structure Agree (b : FundBooks) (w : World) : Prop where
  operators : b.operators = w.storage.operators
  currentIndex : b.currentIndex = w.storage.currentIndex.val
  totalShares : b.totalShares = w.storage.totalShares.val
  sharesOf : ∀ a, b.sharesOf a = (w.storage.sharesOf a).val
  holdings : Holds b.holdings w.asset

end FundBooks

variable {contract : Address} {b : FundBooks} {w w' : World}

/-! ## What calls emit -/

/-- A subscription logs its transfer and its shares. -/
theorem subscribe_emits {msgSender onBehalfOf : Address} {amount shares : Uint256}
    {logs : List Log}
    (h : subscribe contract w msgSender onBehalfOf amount = .ok (w', shares, logs)) :
    onBehalfOf ≠ zeroAddress ∧ amount ≤ w.asset.balanceOf onBehalfOf ∧
      logs = [.token (.transfer onBehalfOf contract amount),
        .fund (.subscribed onBehalfOf amount shares)] := by
  unfold subscribe onlyOperator at h
  simp only [bind_eq_ok, require_eq_ok] at h
  obtain ⟨_, _, _, hzero, _, _, _, _, _, _, _, _, _, _, _, _, ⟨_, _, _⟩, htransfer, _, _, heq⟩ := h
  cases heq
  obtain ⟨_, hcovered, _, _, _, _, rfl⟩ := transferFrom_ok htransfer
  exact ⟨hzero, hcovered, rfl⟩

/-- A redemption logs its transfer and its shares. -/
theorem redeem_emits {msgSender onBehalfOf : Address} {amount shares : Uint256} {logs : List Log}
    (h : redeem contract w msgSender onBehalfOf shares = .ok (w', amount, logs)) :
    0 < shares.val ∧ amount ≤ w.asset.balanceOf contract ∧
      logs = [.token (.transfer contract onBehalfOf amount),
        .fund (.redeemed onBehalfOf shares amount)] := by
  unfold redeem onlyOperator at h
  simp only [bind_eq_ok, require_eq_ok] at h
  obtain ⟨_, _, _, hpos, _, _, _, _, _, _, _, _, _, _, ⟨_, _, _⟩, htransfer, _, _, heq⟩ := h
  cases heq
  obtain ⟨hcovered, _, _, _, _, rfl⟩ := _transfer_ok htransfer
  exact ⟨hpos, hcovered, rfl⟩

namespace FundBooks

/-- The logs are read to the end, and the books agree with the world after the call. -/
def Follows (contract : Address) (b : FundBooks) (logs : List Log) (w : World) : Prop :=
  ∃ b' : FundBooks, logs.foldlM (read contract) b = some b' ∧ b'.Agree w

/-- A transfer of the asset, and the event that says what it was for. -/
theorem follows_transfer {src dst : Address} {amount : Uint256} {event : FundEvent}
    {after : Address → ℕ} {b' : FundBooks}
    (hread : readToken b.holdings (.transfer src dst amount) = some after)
    (hevent : ({ b with holdings := after, last := some (.token (.transfer src dst amount)) } :
      FundBooks).readEvent contract event = some b') (hagree : b'.Agree w) :
    b.Follows contract [.token (.transfer src dst amount), .fund event] w := by
  refine ⟨{ b' with last := some (.fund event) }, ?_, hagree.operators, hagree.currentIndex,
    hagree.totalShares, hagree.sharesOf, hagree.holdings⟩
  rw [List.foldlM_cons, read, hread]
  show Option.bind (some _) _ = _
  rw [Option.bind_some, List.foldlM_cons, read, hevent]
  rfl

/-- The books follow a subscription. -/
theorem Agree.subscribe (h : b.Agree w) {msgSender onBehalfOf : Address}
    {amount shares : Uint256} {logs : List Log}
    (hexec : Fund.subscribe contract w msgSender onBehalfOf amount = .ok (w', shares, logs)) :
    b.Follows contract logs w' := by
  obtain ⟨hzero, hcovered, rfl⟩ := subscribe_emits hexec
  obtain ⟨owned, total, asset, hshares, _, hpos, howned, htotal, _, hmoved, _, _, rfl⟩ :=
    subscribe_ok hexec
  obtain ⟨after, hread, hafter⟩ := h.holdings.transferred hcovered hmoved
  have hpriced : shares.val = amount.val * INDEX_SCALE.val / b.currentIndex := by
    rw [hshares, h.currentIndex]
  refine follows_transfer hread (if_pos ⟨rfl, hzero, hpos, hpriced⟩)
    ⟨h.operators, h.currentIndex, ?_, ?_, hafter⟩
  · show b.totalShares + shares.val = total.val
    rw [h.totalShares, htotal]
  · intro a
    show deposit b.sharesOf onBehalfOf shares.val a =
      (Function.update w.storage.sharesOf onBehalfOf owned a).val
    rw [deposit, Function.update_apply, Function.update_apply]
    split
    · rw [h.sharesOf, howned]
    · exact h.sharesOf a

/-- The books follow a redemption. -/
theorem Agree.redeem (h : b.Agree w) {msgSender onBehalfOf : Address} {amount shares : Uint256}
    {logs : List Log}
    (hexec : Fund.redeem contract w msgSender onBehalfOf shares = .ok (w', amount, logs)) :
    b.Follows contract logs w' := by
  obtain ⟨hpos, hcovered, rfl⟩ := redeem_emits hexec
  obtain ⟨owned, total, asset, hamount, howned, htotal, hmoved, _, _, rfl⟩ := redeem_ok hexec
  obtain ⟨after, hread, hafter⟩ := h.holdings.transferred hcovered hmoved
  have hkept := h.sharesOf onBehalfOf
  have hcovers : shares.val ≤ b.sharesOf onBehalfOf := by omega
  have hpriced : amount.val = shares.val * b.currentIndex / INDEX_SCALE.val := by
    rw [hamount, h.currentIndex]
  refine follows_transfer hread (if_pos ⟨rfl, hpos, hcovers, hpriced⟩)
    ⟨h.operators, h.currentIndex, ?_, ?_, hafter⟩
  · show b.totalShares - shares.val = total.val
    have := h.totalShares
    omega
  · intro a
    show Function.update b.sharesOf onBehalfOf (b.sharesOf onBehalfOf - shares.val) a =
      (Function.update w.storage.sharesOf onBehalfOf owned a).val
    rw [Function.update_apply, Function.update_apply]
    split
    · omega
    · exact h.sharesOf a

/-- The asset moves, and the books follow. -/
theorem readAll_asset (contract : Address) {logs : List TokenEvent} {after : Address → ℕ}
    (h : logs.foldlM readToken b.holdings = some after) :
    ∃ last, (logs.map Log.token).foldlM (read contract) b =
      some { b with holdings := after, last := last } := by
  induction logs generalizing b with
  | nil =>
    obtain rfl := Option.some.inj h
    exact ⟨b.last, rfl⟩
  | cons event logs ih =>
    rw [List.foldlM_cons] at h
    obtain ⟨holdings, hfirst, hrest⟩ := Option.bind_eq_some_iff.mp h
    obtain ⟨last, hall⟩ := ih
      (b := { b with holdings := holdings, last := some (.token event) }) hrest
    refine ⟨last, ?_⟩
    rw [List.map_cons, List.foldlM_cons, read, hfirst]
    exact hall

/-- **Replay.** Whatever call goes through, its logs are read, and the books agree. -/
theorem replays (contract : Address) : Replays (machine contract) (read contract) Agree := by
  rintro w b ⟨msgSender, request⟩ w' logs h hexec
  cases request with
  | setOperator operator enabled =>
    simp only [Fund.exec, setOperator, bind_eq_ok] at hexec
    obtain ⟨_, _, heq⟩ := hexec
    cases heq
    refine ⟨_, rfl, ?_, h.currentIndex, h.totalShares, h.sharesOf, h.holdings⟩
    show Function.update b.operators operator enabled = _
    rw [h.operators]
  | subscribe onBehalfOf amount =>
    simp only [Fund.exec, bind_eq_ok] at hexec
    obtain ⟨⟨_, shares, _⟩, hsubscribe, heq⟩ := hexec
    cases heq
    exact h.subscribe hsubscribe
  | redeem onBehalfOf shares =>
    simp only [Fund.exec, bind_eq_ok] at hexec
    obtain ⟨⟨_, amount, _⟩, hredeem, heq⟩ := hexec
    cases heq
    exact h.redeem hredeem
  | accrue newIndex =>
    simp only [Fund.exec, Fund.accrue, bind_eq_ok, require_eq_ok] at hexec
    obtain ⟨_, _, _, hle, heq⟩ := hexec
    cases heq
    have hevent : b.readEvent contract (.accrued w.storage.currentIndex newIndex) =
        some { b with currentIndex := newIndex.val } := if_pos ⟨h.currentIndex.symm, hle⟩
    refine ⟨{ b with
        currentIndex := newIndex.val
        last := some (.fund (.accrued w.storage.currentIndex newIndex)) }, ?_,
      h.operators, rfl, h.totalShares, h.sharesOf, h.holdings⟩
    rw [List.foldlM_cons, read, hevent]
    rfl
  | asset request =>
    simp only [Fund.exec, bind_eq_ok] at hexec
    obtain ⟨⟨_, tokenLogs⟩, hserve, heq⟩ := hexec
    cases heq
    obtain ⟨after, hread, hafter⟩ := h.holdings.serve hserve
    obtain ⟨last, hall⟩ := readAll_asset contract hread
    exact ⟨_, hall, h.operators, h.currentIndex, h.totalShares, h.sharesOf, hafter⟩

end FundBooks

end SettlementOS.Analysis
