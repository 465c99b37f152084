import SettlementOS.Analysis.Endpoints
import SettlementOS.Results.Amounts

/-!
# Are the wallets that are paid the wallets that were screened?

The gate screens the recipient's wallet on the payment's own destination network. An execution
takes the recipient's wallet on the network the selected route ends on, and the fallback of a
payment across networks ends on the source network. There it names a wallet nobody has screened,
unless it has an address that was.
-/

set_option autoImplicit false

namespace SettlementOS.Results

open SettlementOS.Computation Service Model Program Analysis

variable {env : Env} {new : NewPayment}

/-! ## Statement -/

/-- The wallet addresses an entry passes to `initiatePayment` or to the destination transfer. -/
def passedIn (e : Entry sagaEffects) : List String :=
  match e.stmt with
  | .writeContract _ c => passedAddresses c
  | _ => []

/-- The wallet addresses an entry has screened. -/
def screenedIn (e : Entry sagaEffects) : List String :=
  match e.stmt with
  | .screen senderWallet recipientWallet =>
    (senderWallet.toList ++ recipientWallet.toList).map Wallet.address
  | _ => []

/-- Every address that was passed on was screened. -/
def PassedScreened (h : History) : Prop :=
  ∀ e ∈ h, ∀ address ∈ passedIn e, address ∈ h.flatMap screenedIn

/-- The escrow was initiated, or was tried to be. -/
def Initiated (h : History) : Prop :=
  ∃ e ∈ h, ∃ network c, e.stmt = .writeContract network c ∧ c.kind = .initiate

/-- The recipient's wallet on the source network has an address that is screened: that of its
wallet on the destination network, or the sender's. -/
def SourceWalletScreened (env : Env) (new : NewPayment) : Prop :=
  ∃ w, walletOnNetwork env.recipient.wallets new.sourceNetwork = some w ∧
    (some w.address = (walletOnNetwork env.recipient.wallets new.destinationNetwork).map
        Wallet.address ∨
      some w.address = (walletOnNetwork env.sender.wallets new.sourceNetwork).map Wallet.address)

/-- An execution by the route names screened wallets only. -/
def Covered (env : Env) (new : NewPayment) (route : RouteOption) : Prop :=
  route.destinationNetwork = new.destinationNetwork ∨ SourceWalletScreened env new

/-! ## Proof -/

/-- In every run each program keeps to its parties. -/
theorem Reachable.partiesLawful {c : Config env} (h : Reachable env new c) :
    Lawful (S := sagaService env) (fun _ _ => parties env) (fun _ _ _ _ => True)
      (fun _ _ _ _ => True) c :=
  Config.Reaches.keeps (fun _ _ _ _ _ _ _ _ => trivial) request_parties h

/-- Along every run the ends hold. -/
theorem Reachable.endpoints {c : Config env} (h : Reachable env new c) :
    Endpoints env new c.world.state c.world.history := by
  refine Config.Reaches.induct (P := fun c => Endpoints env new c.world.state c.world.history)
    ?_ ?_ h
  · exact ⟨rfl, fun _ => rfl, fun _ he => (List.not_mem_nil he).elim,
      fun _ he => (List.not_mem_nil he).elim, fun _ hroutes => nomatch hroutes⟩
  · intro c₁ m c₂ hreach hE hm
    have hevolves := Reachable.evolves hreach ((Config.Reaches.refl c₁).tail hm)
    rcases Config.step_eq_some hm with ⟨r, -, rfl⟩ | ⟨i, ch, r, o, k, a, w, -, -, he, rfl⟩ |
      ⟨x, s, -, hs, rfl⟩
    · exact hE
    · obtain ⟨s, hs, rfl⟩ := World.exec_eq_some.mp he
      obtain ⟨t, -, hallows⟩ := (Reachable.partiesLawful (hreach.tail hm)).allows (l := []) rfl
      obtain ⟨t', -, hclears⟩ := (clears_lawful (hreach.tail hm)).allows (l := []) rfl
      refine hE.exec (gate hreach) hallows hs ?_ hevolves
      rintro status next opts rfl
      exact hclears.1
    · obtain ⟨hash, network, call, receipt, -, -, rfl⟩ := mine_eq_some hs
      exact ⟨hE.source, hE.row, hE.reads, hE.screened, hE.routes⟩

/-- The recipient's wallet of a plan. -/
theorem recipientWallet_of_plan {p : Payment} {plan : Plan} (h : Plan.make env p = .ok plan) :
    walletOnNetwork env.recipient.wallets plan.destNet = some plan.recipientWallet := by
  unfold Plan.make at h
  cases hr : selectedRoute p with
  | error e => simp [hr, bind, Except.bind] at h
  | ok route =>
    cases hs : assetForCurrency p.sourceCurrency with
    | error e => simp [hr, hs, bind, Except.bind] at h
    | ok sourceAsset =>
      cases hd : assetForCurrency p.destinationCurrency with
      | error e => simp [hr, hs, hd, bind, Except.bind] at h
      | ok destAsset =>
        cases hn : env.contracts route.sourceNetwork with
        | error e => simp [hr, hs, hd, hn, bind, Except.bind] at h
        | ok net =>
          simp only [hr, hs, hd, hn, bind, Except.bind] at h
          split at h
          · rename_i senderWallet recipientWallet _ hrw
            cases h
            exact hrw
          · cases h

/-- A row that was read was the payment's row at some earlier configuration. -/
theorem Reachable.atRead {c : Config env} (h : Reachable env new c) {i : ℕ} {row : Payment}
    (hread : ⟨i, .findPayment, .ok row⟩ ∈ c.world.history) :
    ∃ c₁ : Config env, Reachable env new c₁ ∧ c₁.Reaches c ∧ c₁.world.state.payment = row ∧
      c₁.world.history ⊆ c.world.history := by
  obtain ⟨later, past, hhistory⟩ := List.append_of_mem hread
  obtain ⟨c₁, c₂, ch, hreach, hpast, hstep, -, hexec, hto⟩ := Config.Reaches.at_entry h hhistory
  have hrow : row = c₁.world.state.payment := readRow_exec hexec rfl
  refine ⟨c₁, hreach, ((Config.Reaches.refl c₁).tail hstep).trans hto, hrow.symm, ?_⟩
  rw [hpast, hhistory]
  exact fun e he => List.mem_append_right _ (List.mem_cons_of_mem _ he)

/-- A cleared payment was screened, on its two ends. -/
theorem Reachable.screening {c : Config env} (h : Reachable env new c)
    (hs : c.world.state.payment.status ∈ clearedStates) :
    ∃ x ∈ c.world.history, x.stmt = .screen
      (walletOnNetwork env.sender.wallets new.sourceNetwork)
      (walletOnNetwork env.recipient.wallets new.destinationNetwork) := by
  obtain ⟨later, ⟨i, o, r⟩, past, checks, hhistory, hstored, -⟩ := (gate h).cleared hs
  obtain ⟨t, -, hallows⟩ := h.partiesLawful.allows hhistory
  cases o with
  | createComplianceChecks stored =>
    obtain ⟨⟨o', r'⟩, hx, hscreens⟩ := hallows
    have hmem : (⟨i, o', r'⟩ : Entry sagaEffects) ∈ c.world.history := by
      rw [hhistory]
      exact List.mem_append_right _ (List.mem_cons_of_mem _ (mem_of_trail hx))
    cases o' with
    | screen senderWallet recipientWallet =>
      obtain ⟨hsender, hrecipient⟩ := h.endpoints.screened _ hmem _ _ rfl
      exact ⟨_, hmem, by rw [← hsender, ← hrecipient]⟩
    | _ => cases hscreens
  | _ => cases r <;> cases hstored

/-- What a transaction that is passed wallets goes by: the plan of the payment as it is in the
end, with the wallets on the two networks of the selected route. -/
structure GoesBy (env : Env) (new : NewPayment) (payment : Payment) (c : Call) (plan : Plan) :
    Prop where
  names : NamesPlan plan c
  route : selectedRoute payment = .ok plan.route
  crosses : plan.isCrossChain = true → plan.route.destinationNetwork ≠ new.sourceNetwork
  sender : walletOnNetwork env.sender.wallets new.sourceNetwork = some plan.senderWallet
  recipient : walletOnNetwork env.recipient.wallets plan.route.destinationNetwork =
    some plan.recipientWallet

/-- An entry that passes wallets on goes by the plan, after a screening. -/
theorem Reachable.passes {c : Config env} (h : Reachable env new c) {i : ℕ} {network : Network}
    {call : Call} {r : Except Err Hash}
    (he : ⟨i, .writeContract network call, r⟩ ∈ c.world.history)
    (hne : passedAddresses call ≠ []) :
    (∃ plan, GoesBy env new c.world.state.payment call plan) ∧
      ∃ x ∈ c.world.history, x.stmt = .screen
        (walletOnNetwork env.sender.wallets new.sourceNetwork)
        (walletOnNetwork env.recipient.wallets new.destinationNetwork) := by
  obtain ⟨later, past, hhistory⟩ := List.append_of_mem he
  obtain ⟨t, -, hallows⟩ := h.partiesLawful.allows hhistory
  obtain ⟨row, hrow, hstatus, plan, hplan, hnames⟩ := hallows hne
  have hread : (⟨i, .findPayment, .ok row⟩ : Entry sagaEffects) ∈ c.world.history := by
    rw [hhistory]
    exact List.mem_append_right _ (List.mem_cons_of_mem _ (mem_of_trail hrow))
  obtain ⟨c₁, hreach, hto, rfl, hsub⟩ := h.atRead hread
  obtain ⟨x, hx, hscreen⟩ := hreach.screening (by rw [hstatus]; decide)
  refine ⟨⟨plan, ?_⟩, x, hsub hx, hscreen⟩
  -- the quote has not changed since
  have hquote := (hreach.evolves hto).quote (by rw [hstatus]; decide)
  have hmade := Plan.made hplan
  have hsource : plan.sourceNet = new.sourceNetwork := by
    rw [hmade.sourceNet, hreach.home _ hmade.route, hreach.endpoints.source]
  constructor
  case names => exact hnames
  case route => rw [selectedRoute_congr hquote, hmade.route]
  case sender => rw [← hsource, hmade.senderWallet]
  case recipient => rw [← hmade.destNet, recipientWallet_of_plan hplan]
  case crosses =>
    intro hcross
    rw [← hmade.destNet, ← hsource]
    have hne : plan.sourceNet ≠ plan.destNet := of_decide_eq_true hcross
    exact hne.symm

/-- A route of the payment ends on one of its two networks. -/
theorem Reachable.routeEnds {c : Config env} (h : Reachable env new c) {route : RouteOption}
    (hroute : selectedRoute c.world.state.payment = .ok route) :
    route.destinationNetwork = new.destinationNetwork ∨
      route.destinationNetwork = new.sourceNetwork := by
  obtain ⟨routes, hroutes, hmem⟩ := selectedRoute_mem hroute
  exact h.endpoints.routes routes hroutes route hmem

/-- Whose addresses are among those screened. -/
theorem Reachable.mem_screened {c : Config env} (h : Reachable env new c) {address : String}
    (hmem : address ∈ c.world.history.flatMap screenedIn) :
    some address = (walletOnNetwork env.recipient.wallets new.destinationNetwork).map
        Wallet.address ∨
      some address = (walletOnNetwork env.sender.wallets new.sourceNetwork).map
        Wallet.address := by
  obtain ⟨⟨i, o, r⟩, he, hin⟩ := List.mem_flatMap.mp hmem
  cases o with
  | screen senderWallet recipientWallet =>
    obtain ⟨rfl, rfl⟩ := h.endpoints.screened _ he _ _ rfl
    obtain ⟨w, hw, rfl⟩ := List.mem_map.mp hin
    rcases List.mem_append.mp hw with hw | hw
    · right
      rw [Option.mem_toList.mp hw]
      rfl
    · left
      rw [Option.mem_toList.mp hw]
      rfl
  | _ => cases hin

/-- After a screening both wallets on the ends are among those screened. -/
theorem screened_of_wallet {h : History} {x : Entry sagaEffects} (hx : x ∈ h)
    {senderWallet recipientWallet : Option Wallet}
    (hscreen : x.stmt = .screen senderWallet recipientWallet) {w : Wallet}
    (hw : senderWallet = some w ∨ recipientWallet = some w) :
    w.address ∈ h.flatMap screenedIn := by
  refine List.mem_flatMap.mpr ⟨x, hx, ?_⟩
  unfold screenedIn
  rw [hscreen]
  apply List.mem_map_of_mem
  rcases hw with rfl | rfl
  · exact List.mem_append_left _ (List.mem_singleton_self w)
  · exact List.mem_append_right _ (List.mem_singleton_self w)

/-- The plan's recipient is screened when the selected route is covered. -/
theorem recipient_screened {h : History} {payment : Payment} {call : Call} {plan : Plan}
    (hplan : GoesBy env new payment call plan) {x : Entry sagaEffects} (hx : x ∈ h)
    (hscreen : x.stmt = .screen (walletOnNetwork env.sender.wallets new.sourceNetwork)
      (walletOnNetwork env.recipient.wallets new.destinationNetwork))
    (hends : plan.route.destinationNetwork = new.destinationNetwork ∨
      plan.route.destinationNetwork = new.sourceNetwork)
    (hcovered : Covered env new plan.route) :
    plan.recipientWallet.address ∈ h.flatMap screenedIn := by
  have hrecipient := hplan.recipient
  by_cases hdest : plan.route.destinationNetwork = new.destinationNetwork
  · rw [hdest] at hrecipient
    exact screened_of_wallet hx hscreen (.inr hrecipient)
  · rw [hends.resolve_left hdest] at hrecipient
    obtain ⟨w, hw, haddress⟩ := hcovered.resolve_left hdest
    rw [hrecipient, Option.some.injEq] at hw
    subst hw
    have hof : ∀ {o : Option Wallet}, some plan.recipientWallet.address = o.map Wallet.address →
        ∃ w, o = some w ∧ w.address = plan.recipientWallet.address := by
      intro o ho
      obtain ⟨w, hw, heq⟩ := Option.map_eq_some_iff.mp ho.symm
      exact ⟨w, hw, heq⟩
    rcases haddress with haddress | haddress
    · obtain ⟨w, hw, heq⟩ := hof haddress
      exact heq ▸ screened_of_wallet hx hscreen (.inr hw)
    · obtain ⟨w, hw, heq⟩ := hof haddress
      exact heq ▸ screened_of_wallet hx hscreen (.inl hw)

/-- **Are they the wallets that were screened?** In a run on a payment every address passed to an
initiation or to a payout was screened exactly when the selected route is covered: it ends on the
payment's own destination network, or the recipient's wallet on the source network has a screened
address. Until an initiation is sent nothing is passed. -/
theorem passed_screened_iff {c : Config env} (h : Reachable env new c) :
    PassedScreened c.world.history ↔ (Initiated c.world.history →
      ∀ route, selectedRoute c.world.state.payment = .ok route → Covered env new route) := by
  constructor
  · rintro hscreened ⟨⟨i, o, r⟩, he, network, call, rfl, hkind⟩ route hroute
    cases call with
    | initiatePayment id sender recipient asset amount source destination =>
      obtain ⟨⟨plan, hplan⟩, -⟩ := h.passes he (List.cons_ne_nil _ _)
      obtain rfl : plan.route = route := Except.ok.inj (hplan.route.symm.trans hroute)
      rcases h.routeEnds hroute with hdest | hsource
      · exact .inl hdest
      · right
        obtain ⟨-, rfl⟩ := hplan.names
        have hmem := hscreened _ he plan.recipientWallet.address
          (List.mem_cons_of_mem _ (List.mem_singleton_self _))
        exact ⟨plan.recipientWallet, hsource ▸ hplan.recipient, h.mem_screened hmem⟩
    | transfer leg token recipient amount => cases leg <;> cases hkind
    | _ => cases hkind
  · rintro hcovered ⟨i, o, r⟩ he address haddress
    cases o with
    | writeContract network call =>
      have hin : address ∈ passedAddresses call := haddress
      obtain ⟨⟨plan, hplan⟩, x, hx, hscreen⟩ := h.passes he (List.ne_nil_of_mem hin)
      have hends := h.routeEnds hplan.route
      cases call with
      | initiatePayment id sender recipient asset amount source destination =>
        obtain ⟨rfl, rfl⟩ := hplan.names
        have hroute := hcovered ⟨_, he, network, _, rfl, rfl⟩ _ hplan.route
        rcases List.mem_cons.mp hin with rfl | hin
        · exact screened_of_wallet hx hscreen (.inl hplan.sender)
        · rw [List.mem_singleton.mp hin]
          exact recipient_screened hplan hx hscreen hends hroute
      | transfer leg token recipient amount =>
        cases leg with
        | destinationPayout =>
          -- a payout crosses networks, so it ends on the payment's own destination
          obtain ⟨hcross, rfl⟩ := hplan.names
          have hdest := hends.resolve_right (hplan.crosses hcross)
          rw [List.mem_singleton.mp hin]
          exact recipient_screened hplan hx hscreen hends (.inl hdest)
        | compensation => cases hin
      | _ => cases hin
    | _ => cases haddress

/-- Where the payment's selected route ends. -/
def endsOn (payment : Payment) (network : Network) : Bool :=
  match selectedRoute payment with
  | .ok route => route.destinationNetwork == network
  | .error _ => false

/-- The sample payment, completed by the bridge: its initiation and its payout named screened
wallets. -/
theorem passed_screened_bridged : ∃ c : Config sampleEnv,
    Reachable sampleEnv samplePayment c ∧ c.world.state.payment.status = .settled ∧
    PassedScreened c.world.history := by
  obtain ⟨c, hc, hP⟩ := reached sampleEnv samplePayment completedRun
    (P := fun c => c.world.state.payment.status == .settled &&
      endsOn c.world.state.payment "beta") (by decide +kernel)
  obtain ⟨hs, hends⟩ := Bool.and_eq_true_iff.mp hP
  refine ⟨c, hc, by simpa using hs, (passed_screened_iff hc).mpr fun _ route hroute => .inl ?_⟩
  unfold endsOn at hends
  rw [hroute] at hends
  exact eq_of_beq hends

/-- The sample's recipient has a wallet on either network. -/
def twoWalletEnv : Env :=
  { sampleEnv with recipient :=
      { sampleEnv.recipient with
        wallets := [⟨"alpha", "0x4a", true, 0⟩, ⟨"beta", "0x4b", true, 0⟩] } }

/-- Statement after statement of request `i`, none of which fails. -/
def twoWalletSteps (i n : ℕ) : List (Move twoWalletEnv) :=
  List.replicate n (.perform i { treasury := ⟨10 ^ 12, 0, 10 ^ 12⟩ })

/-- The sample payment is quoted, and executed by the fallback. -/
def fallbackRun : List (Move twoWalletEnv) :=
  .start (.quote "ops") :: twoWalletSteps 0 5 ++
    .start (.execute "ops" (some "route_p_srcchain")) :: twoWalletSteps 1 15 ++
    .outside (.mine 0 true 1 1) :: twoWalletSteps 1 3

/-- The escrow of the fallback names a wallet that nobody has screened. -/
theorem fallback_unscreened : ∃ c : Config twoWalletEnv,
    Reachable twoWalletEnv samplePayment c ∧
      (∃ e ∈ c.world.history, "0x4a" ∈ passedIn e) ∧
      "0x4a" ∉ c.world.history.flatMap screenedIn ∧ ¬ PassedScreened c.world.history := by
  obtain ⟨c, hc, hP⟩ := reached twoWalletEnv samplePayment fallbackRun
    (P := fun c => (c.world.history.any fun e => decide ("0x4a" ∈ passedIn e)) &&
      !decide ("0x4a" ∈ c.world.history.flatMap screenedIn)) (by decide +kernel)
  simp only [Bool.and_eq_true, List.any_eq_true, decide_eq_true_eq, Bool.not_eq_true',
    decide_eq_false_iff_not] at hP
  obtain ⟨⟨e, he, hpassed⟩, hnot⟩ := hP
  exact ⟨c, hc, ⟨e, he, hpassed⟩, hnot, fun h => hnot (h e he _ hpassed)⟩

end SettlementOS.Results
