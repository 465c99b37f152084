import SettlementOS.Analysis.Deeds
import SettlementOS.Analysis.Frames
import SettlementOS.Analysis.Fund
import SettlementOS.Analysis.Treasury
import SettlementOS.Model.Units
import SettlementOS.Program.Platform

/-!
# Whoever takes liquidity has looked

An execution reserves what it has just found free, and a parking subscribes what it has just found
free; nothing else reserves or subscribes. What is found free is the treasury's balance as it was
read, without the reservations as they were read after it.
-/

set_option autoImplicit false

namespace SettlementOS.Analysis.Pool

open SettlementOS.Computation Law Model Program
open Program.Platform (platformEffects Setup ofTreasury carry)

/-! ## Executions -/

section

variable {env : Model.Env} {α : Type} {past : List (Event sagaEffects)}

/-- A payment has found an amount of an asset free on a network. -/
def FoundFree (env : Model.Env) (symbol : AssetSymbol) (network : Network) (amount : String)
    (past : List (Event sagaEffects)) : Prop :=
  ∃ net token units b, env.deployments.networks network = some net ∧
    net.tokens symbol = some token ∧ destinationUnits amount token.decimals = .ok units ∧
    units ≤ b.free ∧ (⟨.freeTreasuryBalance network symbol, .ok b⟩ : Event sagaEffects) ∈ past

/-- An execution reserves what it has found free. -/
def reservesFree (env : Model.Env) : Law sagaEffects where
  Answers _ _ := True
  Allows past e :=
    match e.stmt with
    | .reserve _ symbol network amount => FoundFree env symbol network amount past
    | _ => True

/-- Whoever does not reserve need not have looked. -/
theorem keeps_of_no_reserve {ε : Type} {p : Prog sagaEffects ε α} (ds : List Deed)
    (hp : p.Uses (Within ds)) (hds : .reserve ∉ ds) :
    (reservesFree env).Keeps (fun _ _ => True) (fun _ _ => True) p past := by
  apply keeps_of_uses (P := fun _ => True) _ hp trivial
  intro past o r ho _ _
  refine ⟨?_, trivial⟩
  cases o with
  | reserve leaseId asset network amount => exact absurd (ho .reserve rfl) hds
  | _ => trivial

/-- A token that is found is the network's. -/
theorem tokenOn_ok {net : DeployedNetwork} {network : Network} {symbol : AssetSymbol}
    {token : Token} (h : tokenOn net network symbol = .ok token) :
    net.tokens symbol = some token := by
  unfold tokenOn at h
  split at h
  · rename_i t ht
    exact Except.ok.inj h ▸ ht
  · cases h

/-- The check of the liquidity finds it free, or throws. -/
theorem keeps_checkLiquidity {p : Payment} {plan : Plan} :
    (reservesFree env).Keeps
      (fun _ => FoundFree env plan.destAsset.symbol plan.destNet plan.destAmount)
      (fun _ _ => True) (checkLiquidity env p plan) past := by
  apply keeps_bind
  unfold availableLiquidity
  split
  · trivial
  · rename_i net hnet
    apply keeps_bind
    refine keeps_ofExcept (fun token htoken => ?_) fun _ _ => trivial
    apply keeps_bind
    refine fun r _ => ⟨trivial, keeps_ofExcept (fun b hb => ?_) fun _ _ => trivial⟩
    apply keeps_bind
    refine keeps_ofExcept (fun units hunits => ?_) fun _ _ => trivial
    split
    · -- it fails the payment, and then throws
      exact keeps_bind (keeps_mono (keeps_of_no_reserve [.move .failed]
        (does_setStatus _ _ _ (List.mem_singleton_self _) rfl) (by decide))
        (fun _ _ _ => trivial) fun _ _ _ => trivial)
    · rename_i henough
      refine ⟨net, token, units, b, hnet, tokenOn_ok htoken, hunits, not_lt.mp henough, ?_⟩
      exact hb ▸ List.mem_cons_self

/-- The reservation of what was found free, and whatever follows it. -/
theorem keeps_reserveLiquidity {leaseId : ℕ} {p : Payment} {plan : Plan} {f : Unit → Saga α}
    (hfound : FoundFree env plan.destAsset.symbol plan.destNet plan.destAmount past)
    (hf : ∀ past, (reservesFree env).Keeps (fun _ _ => True) (fun _ _ => True) (f ()) past) :
    (reservesFree env).Keeps (fun _ _ => True) (fun _ _ => True)
      ((reserveLiquidity leaseId p plan).bind f) past := by
  intro r _
  refine ⟨hfound, ?_⟩
  cases r with
  | error e => trivial
  | ok held =>
    cases held with
    | false => trivial
    | true => exact hf _

/-- It reserves once, after the check. -/
theorem keeps_runExecution {leaseId : ℕ} {p : Payment} :
    (reservesFree env).Keeps (fun _ _ => True) (fun _ _ => True)
      (runExecution env leaseId p) past := by
  have hplain : ∀ {β : Type} {q : Saga β} {past : List (Event sagaEffects)},
      q.Uses (Within [.move .failed, .move .liquidityReserved]) →
      (reservesFree env).Keeps (fun _ _ => True) (fun _ _ => True) q past :=
    fun h => keeps_of_no_reserve _ h (by decide)
  apply keeps_bind_of_forall (hplain (does_lift _))
  intro plan past
  apply keeps_bind_of_forall (hplain (does_alignDestination _ _))
  intro p past
  apply keeps_bind_of_forall (hplain (does_autoRecall _ _ (by decide)))
  intro _ past
  apply keeps_seq keeps_checkLiquidity
  intro _ past hfound
  apply keeps_reserveLiquidity hfound
  intro past
  apply keeps_bind_of_forall (hplain (does_setStatus _ _ _ (by decide) rfl))
  intro p past
  apply keeps_bind_of_forall (hplain (does_lift _))
  intro _ past
  apply keeps_bind_of_forall (hplain (does_lift _))
  intro units past
  exact keeps_of_no_reserve (settleDeeds ++ recoveryDeeds)
    (Prog.Uses.handle (does_settle _ _ _ _ (by decide)) fun e => does_recover _ _ _ (by decide))
    (by decide)

/-- An execution of an approved payment reserves what it has found free. -/
theorem keeps_executePayment {leaseId : ℕ} :
    (reservesFree env).Keeps (fun _ _ => True) (fun _ _ => True)
      (executePayment env leaseId) past := by
  have hplain : ∀ {β : Type} {q : Saga β} {past : List (Event sagaEffects)},
      q.Uses (Within leaseDeeds) →
      (reservesFree env).Keeps (fun _ _ => True) (fun _ _ => True) q past :=
    fun h => keeps_of_no_reserve _ h (by decide)
  apply keeps_bind_of_forall (hplain (does_plain rfl))
  intro p past
  split
  · apply keeps_bind_of_forall (hplain (does_call (within_deed rfl (by decide))))
    intro claimed past
    have hrelease : ∀ past, (reservesFree env).Keeps (fun _ _ => True) (fun _ _ => True)
        ((call (.releaseLease leaseId)).ignoring : Saga Unit) past :=
      fun past => hplain (does_call (within_deed rfl (by decide))).ignoring
    split
    · exact keeps_andFinally (keeps_mono keeps_runExecution (fun _ past _ => hrelease past)
        fun _ past _ => hrelease past)
    · trivial
  · trivial

/-- So does an execution. -/
theorem keeps_runExecute {leaseId : ℕ} {actor : String} {routeId : Option String} :
    (reservesFree env).Keeps (fun _ _ => True) (fun _ _ => True)
      (runExecute env leaseId actor routeId) past := by
  have hgate : ∀ {β : Type} {q : Saga β} {past : List (Event sagaEffects)},
      q.Uses (Within gateDeeds) →
      (reservesFree env).Keeps (fun _ _ => True) (fun _ _ => True) q past :=
    fun h => keeps_of_no_reserve _ h (by decide)
  have happroved : ∀ past, (reservesFree env).Keeps (fun _ _ => True) (fun _ _ => True)
      (executeApproved env leaseId) past := fun past =>
    keeps_handle (keeps_mono keeps_executePayment (fun _ _ h => h) fun _ _ _ =>
      hgate (Prog.Uses.bind (does_plain rfl) fun _ => trivial))
  apply keeps_bind_of_forall (hgate (does_plain rfl))
  intro p past
  apply keeps_bind_of_forall (hgate (does_lift _))
  intro _ past
  apply keeps_bind
  refine keeps_ofExcept (fun selection hselection => ?_) fun _ _ => trivial
  have hs := routeSelection_status hselection
  split
  · apply keeps_bind_of_forall (hgate (does_complianceGate _ _ hs (List.Subset.refl _)))
    intro p past
    split
    · exact happroved past
    · trivial
  · split
    · exact happroved past
    · trivial

/-- Every request of a payment reserves only what it has found free. -/
theorem request_reservesFree (i : ℕ) (r : Program.Request) :
    (reservesFree env).Keeps (fun _ _ => True) (fun _ _ => True) (r.program env i) [] := by
  cases r with
  | execute actor routeId => exact keeps_bind_of_forall keeps_runExecute fun _ _ => trivial
  | cancel actor =>
    exact keeps_of_no_reserve _ (Prog.Uses.bind (does_cancelPayment actor
      (List.mem_singleton_self _)) fun _ => trivial) (by decide)
  | review actor approve note =>
    exact keeps_of_no_reserve _ (Prog.Uses.bind (does_reviewPayment actor approve note
      (List.Subset.refl _)) fun _ => trivial) (by decide)
  | quote actor =>
    exact keeps_of_no_reserve _ (Prog.Uses.bind (does_quotePayment actor
      (List.mem_singleton_self _)) fun _ => trivial) (by decide)
  | repair =>
    exact keeps_of_no_reserve _ (Prog.Uses.bind (does_repairCompensation i
      (List.Subset.refl _)) fun _ => trivial) (by decide)
  | reconcile =>
    exact keeps_of_no_reserve _ (Prog.Uses.bind (does_reconcileUnresolvedPayment i
      (List.Subset.refl _)) fun _ => trivial) (by decide)

end

/-! ## The treasury -/

section

open Model.Treasury (treasuryEffects DeployedToken)
open Program.Treasury

variable {env : Treasury.Env} {α : Type} {past : List (Event treasuryEffects)}
  {symbol : AssetSymbol} {token : DeployedToken} {units : ℕ}

/-- The units were free by the balance that was read and the reservations read after it. `ev` is
how the treasury's events occur in the trail. -/
def Checked {E : Effects} (ev : Event treasuryEffects → Event E) (symbol : AssetSymbol)
    (token : DeployedToken) (units : ℕ) (past : List (Event E)) : Prop :=
  ∃ since older b rows R,
    past = since ++ ev ⟨.findReservations symbol, .ok rows⟩ ::
      ev ⟨.balanceOf token.address, .ok b⟩ :: older ∧
      reservedUnits rows token.decimals = .ok R ∧ units ≤ b - R

/-- What was checked stays checked. -/
theorem Checked.append {E : Effects} {ev : Event treasuryEffects → Event E}
    {past : List (Event E)} (h : Checked ev symbol token units past) (l : List (Event E)) :
    Checked ev symbol token units (l ++ past) := by
  obtain ⟨since, older, b, rows, R, rfl, hrows, hle⟩ := h
  exact ⟨l ++ since, older, b, rows, R, by simp, hrows, hle⟩

/-- What was found free is enough for less. -/
theorem Checked.mono {E : Effects} {ev : Event treasuryEffects → Event E}
    {past : List (Event E)} (h : Checked ev symbol token units past) {n : ℕ} (hn : n ≤ units) :
    Checked ev symbol token n past := by
  obtain ⟨since, older, b, rows, R, hpast, hrows, hle⟩ := h
  exact ⟨since, older, b, rows, R, hpast, hrows, Nat.le_trans hn hle⟩

/-- What a parking subscribes was free. -/
def subscribesFree (env : Treasury.Env) : Law treasuryEffects where
  Answers o r :=
    match o, r with
    | .asset, .ok backing => backing = env.backing
    | _, _ => True
  Allows past e :=
    match e.stmt with
    | .subscribe amount => ∃ symbol token, env.tokens symbol = some token ∧
        token.address = env.backing ∧ Checked id symbol token amount past
    | _ => True

/-- Whoever does not subscribe need not have looked, and keeps what it has seen. -/
theorem keeps_of_no_subscribe {P : List (Event treasuryEffects) → Prop}
    (hP : ∀ e past, P past → P (e :: past)) {ks : List TreasuryKind} {p : Operation α}
    (hp : p.Uses (OfKind ks)) (hks : .subscribe ∉ ks) (h : P past) :
    (subscribesFree env).Keeps (fun _ => P) (fun _ => P) p past := by
  apply keeps_of_uses (P := P) _ hp h
  intro past o r ho h _
  refine ⟨?_, hP _ _ h⟩
  cases o with
  | subscribe amount => exact absurd ho hks
  | _ => trivial

/-- A free balance has been looked up. -/
def FreeBy (env : Treasury.Env) (symbol : AssetSymbol) (free : ℕ)
    (past : List (Event treasuryEffects)) : Prop :=
  ∃ token, env.tokens symbol = some token ∧ Checked id symbol token free past

/-- A token that is found is the treasury's. -/
theorem tokenFor_ok (h : tokenFor env symbol = .ok token) : env.tokens symbol = some token := by
  unfold tokenFor at h
  split at h
  · rename_i t ht
    exact Except.ok.inj h ▸ ht
  · cases h

/-- The free balance that is answered has been read. -/
theorem keeps_freeTreasuryBalance :
    (subscribesFree env).Keeps (fun b => FreeBy env symbol b.free) (fun _ _ => True)
      (freeTreasuryBalance env symbol) past := by
  apply keeps_bind
  refine keeps_ofExcept (fun token htoken => ?_) fun _ _ => trivial
  apply keeps_bind
  refine fun r _ => ⟨trivial, keeps_ofExcept (fun b hb => ?_) fun _ _ => trivial⟩
  apply keeps_bind
  refine fun r' _ => ⟨trivial, keeps_ofExcept (fun rows hrows => ?_) fun _ _ => trivial⟩
  apply keeps_bind
  refine keeps_ofExcept (fun reserved hreserved => ?_) fun _ _ => trivial
  exact ⟨token, tokenFor_ok htoken, [], past, b, rows, reserved, by rw [hb, hrows]; rfl, hreserved,
    Nat.le_refl _⟩

/-- The asset that is found is the fund's. -/
theorem keeps_fundAssetFor (asset : String) :
    (subscribesFree env).Keeps (fun a _ => env.tokens a.symbol = some ⟨a.token, a.decimals⟩ ∧
      a.token = env.backing) (fun _ _ => True) (fundAssetFor env asset) past := by
  apply keeps_bind
  refine keeps_ofExcept (fun _ _ => ?_) fun _ _ => trivial
  split
  · trivial
  · apply keeps_bind
    refine keeps_ofExcept (fun token htoken => ?_) fun _ _ => trivial
    apply keeps_bind
    refine fun r hr => ⟨trivial, keeps_ofExcept (fun backing hbacking => ?_) fun _ _ => trivial⟩
    subst hbacking
    have hr : backing = env.backing := hr
    split
    · trivial
    · rename_i hsame
      exact ⟨tokenFor_ok htoken, hr ▸ (not_not.mp hsame).symm⟩

/-- A parking subscribes after the check. -/
theorem keeps_park (args : ParkArgs) :
    (subscribesFree env).Keeps (fun _ _ => True) (fun _ _ => True) (park env args) past := by
  have hread : TreasuryKind.read ∈ [TreasuryKind.read, .approve, .recordPark] := by decide
  have happrove : TreasuryKind.approve ∈ [TreasuryKind.read, .approve, .recordPark] := by decide
  have hrecord : TreasuryKind.recordPark ∈ [TreasuryKind.read, .approve, .recordPark] := by decide
  have hplain : ∀ {β : Type} {q : Operation β} {past : List (Event treasuryEffects)},
      q.Uses (OfKind [.read, .approve, .recordPark]) →
      (subscribesFree env).Keeps (fun _ _ => True) (fun _ _ => True) q past :=
    fun h => keeps_of_no_subscribe (P := fun _ => True) (fun _ _ _ => trivial) h (by decide) trivial
  apply keeps_bind_of_forall (hplain (performs_assertMayPark _ fun _ => hread))
  intro _ past
  apply keeps_seq (keeps_fundAssetFor _)
  rintro asset past ⟨htoken, hbacking⟩
  apply keeps_bind_of_forall (hplain (performs_lift _))
  intro amount past
  apply keeps_seq keeps_freeTreasuryBalance
  rintro balance past ⟨token, htoken', hchecked⟩
  obtain rfl := Option.some.inj (htoken.symm.trans htoken')
  split
  · trivial
  · rename_i henough
    have hsees : ∀ {β : Type} {q : Operation β} {past : List (Event treasuryEffects)},
        q.Uses (OfKind [.read, .approve, .recordPark]) →
        Checked id asset.symbol ⟨asset.token, asset.decimals⟩ amount past →
        (subscribesFree env).Keeps
          (fun _ => Checked id asset.symbol ⟨asset.token, asset.decimals⟩ amount)
          (fun _ _ => True) q past := fun hq h =>
      keeps_mono (keeps_of_no_subscribe (fun e _ h => h.append [e]) hq (by decide) h)
        (fun _ _ h => h) fun _ _ _ => trivial
    apply keeps_seq (hsees (performs_ensureTreasuryAllowance _ _ hread happrove)
      (hchecked.mono (not_lt.mp henough)))
    intro _ past hpast
    apply keeps_seq (hsees (of_call (o := .currentIndex) hread) hpast)
    intro _ past hpast
    apply keeps_seq (hsees (of_call (o := .sharesOf) hread) hpast)
    intro _ past hpast
    apply keeps_bind
    unfold mmfOperatorWrite
    split
    · trivial
    · refine fun r _ => ⟨⟨_, _, htoken, hbacking, hpast⟩, keeps_ofExcept (fun hash _ => ?_)
        fun _ _ => trivial⟩
      apply keeps_bind_of_forall (hplain (of_call (o := .sharesOf) hread))
      intro _ past
      exact keeps_bind_of_forall (hplain (of_call (o := .recordPark ..) hrecord))
        fun _ _ => trivial

/-- An accrual reads, accrues and writes its event. -/
theorem of_accrueDaily {ks : List TreasuryKind} (annualRateBps : ℤ) (h : .read ∈ ks)
    (hc : .accrue ∈ ks) (ha : .audit ∈ ks) : (accrueDaily env annualRateBps).Uses (OfKind ks) := by
  apply Prog.Uses.bind (performs_lift _)
  intro fund
  apply Prog.Uses.bind (performs_currentIndexOf h)
  intro oldIndex
  apply Prog.Uses.bind (performs_lift _)
  intro newIndex
  apply Prog.Uses.bind (of_mmfOperatorWrite hc)
  intro hash
  exact Prog.Uses.bind (of_call ha) fun _ => trivial

/-- Every operation subscribes only what was free. -/
theorem serve_subscribesFree (r : Treasury.Request) :
    (subscribesFree env).Keeps (fun _ _ => True) (fun _ _ => True) (serve env r) past := by
  have hother : ∀ {β : Type} {q : Operation β},
      q.Uses (OfKind [.read, .redeem, .accrue, .recordRecall, .audit]) →
      (subscribesFree env).Keeps (fun _ _ => True) (fun _ _ => True) q past :=
    fun h => keeps_of_no_subscribe (P := fun _ => True) (fun _ _ _ => trivial) h (by decide) trivial
  cases r with
  | park args => exact keeps_bind_of_forall (keeps_park args) fun _ _ => trivial
  | recallPosition positionId =>
    exact keeps_bind_of_forall (hother (of_recallPosition _ (by decide) (by decide) (by decide)))
      fun _ _ => trivial
  | recallForPayment args =>
    exact keeps_bind_of_forall (hother (of_recallForPayment _ (by decide) (by decide) (by decide)
      (by decide))) fun _ _ => trivial
  | accrueDaily annualRateBps =>
    exact keeps_bind_of_forall (hother (of_accrueDaily _ (by decide) (by decide) (by decide)))
      fun _ _ => trivial

end

/-! ## The platform -/

section

open Model.Treasury (treasuryEffects DeployedToken)
open Program.Treasury (Operation)

variable {setup : Setup} {α : Type} {base : List (Event platformEffects)} {n : ℕ}

/-- A statement of the treasury, as it occurs on the platform. -/
def onPlatform (e : Event treasuryEffects) : Event platformEffects := ⟨.treasury e.stmt, e.answer⟩

/-- What is taken of the network's liquidity was free. -/
def takesFree (setup : Setup) : Law platformEffects where
  Answers o r :=
    match o, r with
    | .treasury .asset, .ok backing => backing = setup.treasury.backing
    | _, _ => True
  Allows past e :=
    match e.stmt with
    | .payment _ (.reserve _ symbol network amount) => network = setup.treasury.networkId →
        ∃ token units, setup.treasury.tokens symbol = some token ∧
          destinationUnits amount token.decimals = .ok units ∧
          Checked onPlatform symbol token units past
    | .treasury (.subscribe amount) => ∃ symbol token, setup.treasury.tokens symbol = some token ∧
        token.address = setup.treasury.backing ∧ Checked onPlatform symbol token amount past
    | _ => True

/-- What the treasury's own trail shows, the platform's does. -/
theorem Checked.onPlatform {symbol : AssetSymbol} {token : DeployedToken} {units : ℕ}
    {past : List (Event treasuryEffects)} (h : Checked id symbol token units past) :
    Checked onPlatform symbol token units (past.map onPlatform ++ base) := by
  obtain ⟨since, older, b, rows, R, rfl, hrows, hle⟩ := h
  exact ⟨since.map Pool.onPlatform, older.map Pool.onPlatform ++ base, b, rows, R, by simp, hrows,
    hle⟩

/-- An operation of the treasury keeps on the platform what it keeps by itself. -/
theorem keeps_ofTreasury {Q : α → List (Event treasuryEffects) → Prop}
    {X : Err → List (Event treasuryEffects) → Prop} {q : Operation α}
    (h : (subscribesFree setup.treasury).Keeps Q X q []) :
    (takesFree setup).Keeps
      (fun a later => ∃ past, Q a past ∧ later = past.map onPlatform ++ base)
      (fun e later => ∃ past, X e past ∧ later = past.map onPlatform ++ base)
      (ofTreasury q) base := by
  refine keeps_interpret (R := fun past later => later = past.map onPlatform ++ base) ?_ h rfl
  rintro o past _ rfl hallows r hr
  have hanswers : (subscribesFree setup.treasury).Answers o r := by
    cases o with
    | asset => cases r <;> exact hr
    | _ => trivial
  refine ⟨?_, hanswers, rfl⟩
  cases o with
  | subscribe amount =>
    obtain ⟨symbol, token, htoken, hbacking, hchecked⟩ := hallows r hanswers
    exact ⟨symbol, token, htoken, hbacking, hchecked.onPlatform⟩
  | _ => trivial

/-- What an execution was told is free, the treasury has checked. -/
def Backs (setup : Setup) (past : List (Event sagaEffects)) (later : List (Event platformEffects)) :
    Prop :=
  ∀ symbol b, (⟨.freeTreasuryBalance setup.treasury.networkId symbol, .ok b⟩ : Event sagaEffects) ∈
    past → ∃ token, setup.treasury.tokens symbol = some token ∧
      Checked onPlatform symbol token b.free later

/-- What backs a past goes on backing it. -/
theorem Backs.append {past : List (Event sagaEffects)} {later : List (Event platformEffects)}
    (h : Backs setup past later) (l : List (Event platformEffects)) :
    Backs setup past (l ++ later) := by
  intro symbol b hb
  obtain ⟨token, htoken, hchecked⟩ := h symbol b hb
  exact ⟨token, htoken, hchecked.append l⟩

/-- A statement other than the treasury's figures is no such answer. -/
theorem Backs.cons {past : List (Event sagaEffects)} {later : List (Event platformEffects)}
    (h : Backs setup past later) {x : Event sagaEffects}
    (hx : ∀ symbol b, x ≠ ⟨.freeTreasuryBalance setup.treasury.networkId symbol, .ok b⟩) :
    Backs setup (x :: past) later := fun symbol b hb =>
  h symbol b ((List.mem_cons.mp hb).resolve_left fun heq => hx symbol b heq.symm)

/-- A statement that is the payment's own. -/
theorem keeps_own {past : List (Event sagaEffects)} (hbacks : Backs setup past base)
    {o : Model.Stmt} (hx : ∀ symbol, o ≠ .freeTreasuryBalance setup.treasury.networkId symbol)
    (hallows : ∀ r, (takesFree setup).Allows base ⟨.payment n o, r⟩) :
    (takesFree setup).Keeps (fun r later => Backs setup (⟨o, r⟩ :: past) later)
      (fun (e : Empty) _ => e.elim) (.perform (.payment n o) .ret) base := by
  refine fun r _ => ⟨hallows r, (hbacks.append [_]).cons fun symbol b heq => hx symbol ?_⟩
  exact congrArg Event.stmt heq

/-- The program of a statement keeps the law. -/
theorem keeps_carry {past : List (Event sagaEffects)} (hbacks : Backs setup past base)
    {o : Model.Stmt}
    (hallows : ∀ r, (reservesFree (setup.accounts n).env).Allows past ⟨o, r⟩) :
    (takesFree setup).Keeps (fun r later => Backs setup (⟨o, r⟩ :: past) later)
      (fun (e : Empty) _ => e.elim) (carry setup n o) base := by
  cases o with
  | freeTreasuryBalance network symbol =>
    by_cases hnetwork : network = setup.treasury.networkId
    · subst hnetwork
      rw [carry, if_pos rfl]
      have hfree : (subscribesFree setup.treasury).Keeps
          (fun b => FreeBy setup.treasury symbol b.free) (fun _ _ => True)
          (Treasury.freeTreasuryBalance setup.treasury symbol) [] := keeps_freeTreasuryBalance
      apply keeps_bind
      apply keeps_handle
      apply keeps_bind
      refine keeps_mono (keeps_ofTreasury hfree) ?_ ?_
      · rintro b _ ⟨own, ⟨token, htoken, hchecked⟩, rfl⟩ symbol' b' hb'
        rcases List.mem_cons.mp hb' with heq | hb'
        · cases heq
          exact ⟨token, htoken, hchecked.onPlatform⟩
        · exact hbacks.append _ symbol' b' hb'
      · rintro e _ ⟨own, -, rfl⟩
        exact (hbacks.append _).cons fun symbol' b' heq => by cases heq
    · rw [carry, if_neg hnetwork]
      exact keeps_own hbacks (fun symbol' heq => hnetwork (by cases heq; rfl)) fun _ => trivial
  | recallForPayment network asset amount =>
    by_cases hnetwork : network = setup.treasury.networkId
    · rw [carry, if_pos hnetwork]
      have huses : (Treasury.recallForPayment setup.treasury
          ⟨asset.name, amount, (setup.accounts n).new.id⟩).Uses
          (OfKind [.read, .redeem, .recordRecall, .audit]) :=
        of_recallForPayment _ (by decide) (by decide) (by decide) (by decide)
      have hrecall : (subscribesFree setup.treasury).Keeps (fun _ _ => True) (fun _ _ => True)
          (Treasury.recallForPayment setup.treasury
            ⟨asset.name, amount, (setup.accounts n).new.id⟩) [] :=
        keeps_of_no_subscribe (P := fun _ => True) (fun _ _ _ => trivial) huses (by decide) trivial
      have hkept : ∀ (r : Except Err Unit) (l : List (Event platformEffects)),
          Backs setup (⟨.recallForPayment network asset amount, r⟩ :: past) (l ++ base) :=
        fun r l => (hbacks.append l).cons fun _ _ heq => by cases heq
      apply keeps_bind
      apply keeps_handle
      apply keeps_bind
      refine keeps_mono (keeps_ofTreasury hrecall) ?_ ?_
      · rintro _ _ ⟨own, -, rfl⟩
        exact hkept _ _
      · rintro e _ ⟨own, -, rfl⟩
        exact hkept _ _
    · rw [carry, if_neg hnetwork]
      exact keeps_own hbacks (fun _ => Model.Stmt.noConfusion) fun _ => trivial
  | reserve leaseId symbol network amount =>
    refine keeps_own hbacks (fun _ => Model.Stmt.noConfusion) fun r => ?_
    rintro rfl
    obtain ⟨net, token, units, b, hnet, htoken, hunits, hle, hmem⟩ := hallows r
    obtain ⟨deployed, hdeployed, hdecimals⟩ := setup.decimals n net symbol token hnet htoken
    obtain ⟨deployed', hdeployed', hchecked⟩ := hbacks symbol b hmem
    obtain rfl := Option.some.inj (hdeployed.symm.trans hdeployed')
    exact ⟨deployed, units, hdeployed, hdecimals ▸ hunits, hchecked.mono hle⟩
  | _ => exact keeps_own hbacks (fun _ => Model.Stmt.noConfusion) fun _ => trivial

/-- Every request keeps the law. -/
theorem request_takesFree (i : ℕ) (r : Platform.Request) :
    (takesFree setup).Keeps (fun _ _ => True) (fun _ _ => True)
    (Platform.program setup i r) [] := by
  cases r with
  | payment n r =>
    apply keeps_bind
    refine keeps_mono (keeps_interpret (R := Backs setup) ?_ (request_reservesFree i r) ?_)
      (fun _ _ _ => trivial) fun _ _ _ => trivial
    · intro o past later hbacks hallows
      exact keeps_mono (keeps_carry hbacks fun r => hallows r trivial)
        (fun _ _ hb => ⟨trivial, hb⟩) fun e _ _ => e.elim
    · exact fun _ _ hb => absurd hb List.not_mem_nil
  | treasury r =>
    exact keeps_bind (keeps_mono (keeps_ofTreasury (serve_subscribesFree r))
      (fun _ _ _ => trivial) fun _ _ _ => trivial)

end

/-! ## The liquidity -/

section

open Model.Treasury (treasuryEffects DeployedToken)
open SettlementOS.Contracts (Address)
open Program.Treasury (reservedUnits parseAssetUnits)

variable {setup : Setup} {s s' : Platform.State} {symbol : AssetSymbol} {decimals : ℕ}

/-- The units an amount reserves. -/
def unitsOf (amount : String) (decimals : ℕ) : ℕ :=
  ((destinationUnits amount decimals).toOption).getD 0

/-- What a payment holds of an asset on a network. -/
def held (network : Network) (symbol : AssetSymbol) (decimals : ℕ) (p : Model.State) : ℕ :=
  match p.reservation with
  | some r =>
    if r.network = network ∧ r.asset = symbol ∧ r.status = .reserved then unitsOf r.amount decimals
    else 0
  | none => 0

/-- The `RESERVED` amounts together. -/
def reserved (setup : Setup) (symbol : AssetSymbol) (decimals : ℕ) (s : Platform.State) : ℕ :=
  (s.payments.map (held setup.treasury.networkId symbol decimals)).sum

/-- What the treasury has of a token. -/
def balance (setup : Setup) (token : Address) (s : Platform.State) : ℕ :=
  ((s.treasury.token setup.treasury token).balanceOf setup.treasury.signers.treasury).val

/-- An amount that is read has its units. -/
theorem unitsOf_eq {amount : String} {units : ℕ}
    (h : destinationUnits amount decimals = .ok units) :
    unitsOf amount decimals = units := by
  rw [unitsOf, h]
  rfl

/-- The two parsers read the same. -/
theorem parseAssetUnits_ok {amount what : String} {units : ℕ}
    (h : parseAssetUnits amount decimals what = .ok units) :
    destinationUnits amount decimals = .ok units := by
  unfold parseAssetUnits at h
  cases hparse : parseScaledUnits amount decimals what none with
  | error e =>
    rw [hparse] at h
    cases h
  | ok n =>
    rw [hparse] at h
    cases h
    exact parse_eq_ok.mpr (parse_eq_ok.mp hparse)

/-- What the treasury adds up. -/
theorem reservedUnits_ok {rows : List String} {n : ℕ} (h : reservedUnits rows decimals = .ok n) :
    n = (rows.map fun amount => unitsOf amount decimals).sum := by
  have hfold : ∀ (rows : List String) (start n : ℕ), rows.foldlM (fun sum amount => do
      let units ← parseAssetUnits amount decimals "reserved amount"
      return sum + units) start = (.ok n : Except Err ℕ) →
      n = start + (rows.map fun amount => unitsOf amount decimals).sum := by
    intro rows
    induction rows with
    | nil =>
      intro start n h
      exact (Except.ok.inj h).symm
    | cons amount rows ih =>
      intro start n h
      rw [List.foldlM_cons] at h
      obtain ⟨next, hnext, h⟩ := bind_eq_ok.mp h
      obtain ⟨units, hunits, hsum⟩ := bind_eq_ok.mp hnext
      obtain rfl := Except.ok.inj hsum
      rw [List.map_cons, List.sum_cons, unitsOf_eq (parseAssetUnits_ok hunits), ih _ _ h]
      omega
  simpa using hfold rows 0 n h

/-- Amounts that can be read can be added up. -/
theorem reservedUnits_total {rows : List String}
    (h : ∀ amount ∈ rows, ∃ units, parseAssetUnits amount decimals "reserved amount" = .ok units) :
    ∃ n, reservedUnits rows decimals = .ok n := by
  unfold reservedUnits
  generalize 0 = start
  induction rows generalizing start with
  | nil => exact ⟨start, rfl⟩
  | cons amount rows ih =>
    obtain ⟨units, hunits⟩ := h amount List.mem_cons_self
    rw [List.foldlM_cons, hunits]
    exact ih (fun amount hmem => h amount (List.mem_cons_of_mem _ hmem)) (start + units)

/-- What is found reserved is what the payments hold. -/
theorem sum_found :
    (((s.found setup).reserved symbol).map fun amount => unitsOf amount decimals).sum =
      reserved setup symbol decimals s := by
  unfold Treasury.State.reserved Platform.State.found Platform.State.reservations reserved
  induction s.payments with
  | nil => rfl
  | cons p payments ih =>
    rw [List.map_cons, List.sum_cons, ← ih]
    cases hr : p.reservation with
    | none => simp [held, hr]
    | some r =>
      by_cases hnetwork : r.network = setup.treasury.networkId
      · by_cases hrow : r.asset = symbol ∧ r.status = .reserved
        · simp [held, hr, hnetwork, hrow]
        · simp [held, hr, hnetwork, hrow]
      · simp [held, hr, hnetwork]

/-- A payment's part of a sum, replaced. -/
theorem sum_set_le {α : Type} (f : α → ℕ) (l : List α) (k : ℕ) (a : α) :
    ((l.set k a).map f).sum ≤ (l.map f).sum + f a := by
  induction l generalizing k with
  | nil => exact Nat.zero_le _
  | cons b l ih =>
    cases k with
    | zero =>
      simp only [List.set_cons_zero, List.map_cons, List.sum_cons]
      omega
    | succ k =>
      have hrest := ih k
      simp only [List.set_cons_succ, List.map_cons, List.sum_cons]
      omega

/-- Replacing one summand by an equal one keeps the sum. -/
theorem sum_set_of_eq {α : Type} (f : α → ℕ) {l : List α} {k : ℕ} {a b : α} (hk : l[k]? = some b)
    (hf : f a = f b) : ((l.set k a).map f).sum = (l.map f).sum := by
  obtain ⟨hlt, rfl⟩ := List.getElem?_eq_some_iff.mp hk
  rw [List.map_set, hf, ← List.getElem_map f (h := by simpa using hlt), List.set_getElem_self]

/-- A reservation adds its units at most, and moves no token. -/
theorem reserved_of_reserve {n leaseId : ℕ} {network : Network} {amount : String}
    {ch : Platform.Choice} {r : Except Err Bool} (decimals : ℕ)
    (h : Platform.exec setup (.payment n (.reserve leaseId symbol network amount)) ch s =
      some (r, s')) :
    reserved setup symbol decimals s' ≤ reserved setup symbol decimals s + unitsOf amount decimals ∧
      s'.treasury = s.treasury := by
  simp only [Platform.exec] at h
  split at h
  · rename_i p hp
    obtain ⟨⟨r', p'⟩, he, heq⟩ := Option.map_eq_some_iff.mp h
    cases heq
    refine ⟨?_, rfl⟩
    have hheld : held setup.treasury.networkId symbol decimals p' = held setup.treasury.networkId
        symbol decimals p ∨ held setup.treasury.networkId symbol decimals p' ≤
          unitsOf amount decimals := by
      rcases Analysis.exec_eq_some he with ⟨-, rfl⟩ | he
      · exact .inl rfl
      · simp only [Stmt.perform, State.reserve] at he
        split at he <;> cases he
        · right
          simp only [held]
          split_ifs <;> omega
        · exact .inl rfl
    rcases hheld with hsame | hle
    · have hsum := sum_set_of_eq (held setup.treasury.networkId symbol decimals) hp hsame
      exact Nat.le_trans (Nat.le_of_eq hsum) (Nat.le_add_right _ _)
    · exact Nat.le_trans (sum_set_le _ _ _ _) (Nat.add_le_add_left hle _)
  · cases h

/-- What a subscription leaves the treasury. -/
theorem balance_of_performed (env : Model.Treasury.Env) (t : Model.Treasury.State) (amount : ℕ) :
    (t.fund.asset.balanceOf env.signers.treasury).val ≤
      ((Model.Treasury.perform env (.subscribe amount) t).2.fund.asset.balanceOf
        env.signers.treasury).val + amount := by
  simp only [Model.Treasury.perform, Model.Treasury.State.transactWith]
  split
  · exact Nat.le_add_right _ _
  · rename_i word hword
    cases hsub : Contracts.Fund.subscribe env.fund t.fund env.signers.operator
        env.signers.treasury word with
    | error e => exact Nat.le_add_right _ _
    | ok result =>
      obtain ⟨fund, shares, logs⟩ := result
      obtain ⟨_, _, asset, -, -, -, -, -, -, hmoved, -, -, rfl⟩ := subscribe_ok hsub
      have hword : word.val = amount := by exact_mod_cast encode_ok hword
      have hpaid := hmoved env.signers.treasury
      rw [if_pos rfl, hword] at hpaid
      exact Nat.le_trans (Nat.le_add_right _ _) (Nat.le_of_eq hpaid.symm)

/-- A subscription takes its amount at most, and reserves nothing. -/
theorem balance_of_subscribe {amount : ℕ} {ch : Platform.Choice} {r : Except Err Hash}
    (h : Platform.exec setup (.treasury (.subscribe amount)) ch s = some (r, s')) :
    balance setup setup.treasury.backing s ≤ balance setup setup.treasury.backing s' + amount ∧
      s'.payments = s.payments := by
  have hbalance : ∀ s : Platform.State, balance setup setup.treasury.backing s =
      (s.treasury.fund.asset.balanceOf setup.treasury.signers.treasury).val := by
    intro s
    rw [balance, Model.Treasury.State.token, if_pos rfl]
  have hperformed := balance_of_performed setup.treasury (s.found setup) amount
  rw [hbalance, hbalance]
  obtain ⟨payment, treasury⟩ := ch
  cases treasury <;> cases h
  · exact ⟨hperformed, rfl⟩
  · exact ⟨Nat.le_add_right _ _, rfl⟩
  · exact ⟨hperformed, rfl⟩

/-! ## What statements answer -/

/-- A statement of the platform answers as the law has it. -/
theorem answers_of_exec {o : Platform.Stmt} {ch : Platform.Choice} {r : Except Err o.Result}
    (h : Platform.exec setup o ch s = some (r, s')) : (takesFree setup).Answers o r := by
  cases o with
  | payment n o => trivial
  | treasury o =>
    cases o with
    | asset =>
      obtain ⟨payment, treasury⟩ := ch
      cases treasury <;> cases h
      · rfl
      · trivial
      · trivial
    | _ => trivial

/-- The balance that is answered is the treasury's. -/
theorem balance_of_answer {token : Address} {ch : Platform.Choice} {b : ℕ}
    (h : Platform.exec setup (.treasury (.balanceOf token)) ch s = some (.ok b, s')) :
    b = balance setup token s := by
  obtain ⟨payment, treasury⟩ := ch
  cases treasury <;> cases h
  rfl

/-- The reservations that are answered add up to what is reserved. -/
theorem reserved_of_answer {ch : Platform.Choice} {rows : List String} {n : ℕ}
    (h : Platform.exec setup (.treasury (.findReservations symbol)) ch s = some (.ok rows, s'))
    (hn : reservedUnits rows decimals = .ok n) : n = reserved setup symbol decimals s := by
  obtain ⟨payment, treasury⟩ := ch
  cases treasury <;> cases h
  rw [← sum_found]
  exact reservedUnits_ok hn

/-! ## What is reserved can be read -/

/-- The reservations of the network are of tokens it has, and can be read. -/
def Readable (setup : Setup) (p : Model.State) : Prop :=
  ∀ row, p.reservation = some row → row.network = setup.treasury.networkId →
    ∃ token units, setup.treasury.tokens row.asset = some token ∧
      destinationUnits row.amount token.decimals = .ok units

/-- A row changes in its status, or is written anew. -/
theorem reservation_after {o : Model.Stmt} {ch : Model.Choice} {r : Except Err o.Result}
    {p p' : Model.State} (h : o.exec ch p = some (r, p')) {row : LiquidityReservation}
    (hrow : p'.reservation = some row) :
    (∃ status, p.reservation = some { row with status := status }) ∨
      ∃ leaseId, o = .reserve leaseId row.asset row.network row.amount := by
  rcases Analysis.exec_eq_some h with ⟨-, rfl⟩ | h
  · exact .inl ⟨row.status, hrow⟩
  · cases o with
    | reserve leaseId asset network amount =>
      simp only [Stmt.perform, State.reserve] at h
      split at h <;> cases h
      · cases hrow
        exact .inr ⟨leaseId, rfl⟩
      · exact .inl ⟨row.status, hrow⟩
    | updateReservation status =>
      simp only [Stmt.perform] at h
      split at h <;> cases h
      · rename_i before hbefore
        cases hrow
        exact .inl ⟨before.status, hbefore⟩
      · exact .inl ⟨row.status, hrow⟩
    | _ =>
      refine .inl ⟨row.status, ?_⟩
      simp only [Stmt.perform, State.transition] at h
      (repeat' split at h) <;> cases h <;> exact hrow

/-- What a payment reserves can still be read after a statement the law allows. -/
theorem readable_of_exec {n : ℕ} {o : Model.Stmt} {ch : Model.Choice} {r : Except Err o.Result}
    {p p' : Model.State} (hp : Readable setup p) {past : List (Event platformEffects)}
    (hallows : (takesFree setup).Allows past ⟨.payment n o, r⟩) (h : o.exec ch p = some (r, p')) :
    Readable setup p' := by
  intro row hrow hnetwork
  rcases reservation_after h hrow with ⟨status, hbefore⟩ | ⟨leaseId, rfl⟩
  · exact hp { row with status := status } hbefore hnetwork
  · obtain ⟨token, units, htoken, hunits, -⟩ := hallows hnetwork
    exact ⟨token, units, htoken, hunits⟩

/-- What can be read can be added up. -/
theorem reservedUnits_of_readable {token : DeployedToken}
    (htoken : setup.treasury.tokens symbol = some token)
    (h : ∀ p ∈ s.payments, Readable setup p) :
    reservedUnits ((s.found setup).reserved symbol) token.decimals =
      .ok (reserved setup symbol token.decimals s) := by
  have hrows : ∀ amount ∈ (s.found setup).reserved symbol,
      ∃ units, parseAssetUnits amount token.decimals "reserved amount" = .ok units := by
    intro amount hamount
    obtain ⟨row, hrow, rfl⟩ := List.mem_map.mp hamount
    obtain ⟨hmem, hasset⟩ := List.mem_filter.mp hrow
    obtain ⟨p, hp, hpart⟩ := List.mem_filterMap.mp hmem
    obtain ⟨r, hr, rfl⟩ := Option.map_eq_some_iff.mp hpart
    obtain ⟨hr, hnetwork⟩ := Option.filter_eq_some_iff.mp hr
    obtain ⟨token', units, htoken', hunits⟩ := h p hp r hr (of_decide_eq_true hnetwork)
    have hsame : r.asset = symbol := (of_decide_eq_true hasset).1
    rw [hsame] at htoken'
    obtain rfl := Option.some.inj (htoken.symm.trans htoken')
    refine ⟨units, ?_⟩
    rw [parseAssetUnits, parse_eq_ok.mpr (parse_eq_ok.mp hunits)]
    rfl
  obtain ⟨n, hn⟩ := reservedUnits_total hrows
  rw [hn, reservedUnits_ok hn, sum_found]

end

end SettlementOS.Analysis.Pool
