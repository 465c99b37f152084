import SettlementOS.Analysis.Parties

/-!
# The ends of a payment

A payment has two ends, the networks it was created with. `Endpoints` is what a history says of
them: until a screening is stored the row keeps both, so that the wallets that were screened are
those on the ends, and every route that was ever quoted for it stops at one of them.
-/

set_option autoImplicit false

namespace SettlementOS.Analysis

open SettlementOS.Computation Service Model Program

variable {env : Env} {new : NewPayment} {i : ℕ} {o : Stmt} {c : Choice} {s s' : State}
  {r : Except Err o.Result} {h : History}

/-- No screening was stored, nor tried to be. -/
def Unstored (h : History) : Prop := ∀ e ∈ h, stores (eventOf e) = false

/-- Where nothing was stored, nothing was before. -/
theorem Unstored.tail {e : Entry sagaEffects} (hn : Unstored (e :: h)) : Unstored h :=
  fun e' he' => hn e' (List.mem_cons_of_mem _ he')

/-- A cleared payment has had a screening stored. -/
theorem stored_of_cleared (hG : Gate s h) (hs : s.payment.status ∈ clearedStates) :
    ¬ Unstored h := by
  intro hn
  obtain ⟨later, e, past, checks, rfl, hstored, -⟩ := hG.cleared hs
  have hfalse := hn e (List.mem_append_right _ List.mem_cons_self)
  rw [Gate.stores_of_persisted hstored] at hfalse
  cases hfalse

/-- Nothing is stored for a payment that nobody has taken out of `QUOTED`. -/
theorem unstored_of_early (hG : Gate s h) (hs : s.payment.status.rank ≤ 1) : Unstored h := by
  intro e he
  apply Bool.eq_false_iff.mpr
  intro hstores
  obtain ⟨x, hx, -, hexits⟩ := hG.owned e he (.inr hstores)
  rw [hG.early hs x hx] at hexits
  cases hexits

/-- What a history says of the ends of a payment. -/
structure Endpoints (env : Env) (new : NewPayment) (s : State) (h : History) : Prop where
  source : s.payment.sourceNetwork = new.sourceNetwork
  row : Unstored h → s.payment.destinationNetwork = new.destinationNetwork
  reads : ∀ e ∈ h, ∀ row, readRow (eventOf e) = some row →
    row.sourceNetwork = new.sourceNetwork ∧
      (Unstored h → row.destinationNetwork = new.destinationNetwork) ∧
      (row.status ∈ clearedStates → ¬ Unstored h)
  screened : ∀ e ∈ h, ∀ senderWallet recipientWallet,
    e.stmt = .screen senderWallet recipientWallet →
      senderWallet = walletOnNetwork env.sender.wallets new.sourceNetwork ∧
        recipientWallet = walletOnNetwork env.recipient.wallets new.destinationNetwork
  routes : ∀ routes, s.payment.quoteJson = some routes → ∀ route ∈ routes,
    route.destinationNetwork = new.destinationNetwork ∨
      route.destinationNetwork = new.sourceNetwork

/-! ## What a statement does to the networks -/

/-- Only two kinds of statements write the destination network or the quote. -/
theorem networks_of_exec (he : o.exec c s = some (r, s'))
    (hupdate : ∀ data, o ≠ .updatePayment data)
    (hmove : ∀ status next opts, o ≠ .transition status next opts) :
    s'.payment.destinationNetwork = s.payment.destinationNetwork ∧
      s'.payment.quoteJson = s.payment.quoteJson := by
  rcases exec_eq_some he with ⟨-, rfl⟩ | hp
  · exact ⟨rfl, rfl⟩
  · cases o with
    | updatePayment data => exact absurd rfl (hupdate data)
    | transition status next opts => exact absurd rfl (hmove status next opts)
    | _ =>
      simp only [Stmt.perform, State.reserve] at hp
      (repeat' split at hp) <;> cases hp <;> exact ⟨rfl, rfl⟩

/-- What a status change writes of the networks and the quote. -/
theorem networks_of_transition {status next : PaymentStatus} {opts : TransitionOpts}
    {r : Except Err (Stmt.transition status next opts).Result}
    (he : (Stmt.transition status next opts).exec c s = some (r, s')) :
    s'.payment = s.payment ∨ (s.payment.status = status ∧
      s'.payment.destinationNetwork =
        opts.data.destinationNetwork.getD s.payment.destinationNetwork ∧
      s'.payment.quoteJson = (opts.data.quoteJson <|> s.payment.quoteJson)) := by
  rcases exec_eq_some he with ⟨-, rfl⟩ | hp
  · exact .inl rfl
  · simp only [Stmt.perform, State.transition] at hp
    split at hp
    · rename_i hstatus
      cases hp
      refine .inr ⟨hstatus, ?_, ?_⟩ <;>
        by_cases hr : next ∈ leaseReleaseStates <;>
          simp [Payment.apply, transitionData, releaseLease, PaymentPatch.spread, hr]
    · cases hp
      exact .inl rfl

/-! ## One statement more -/

namespace Endpoints

/-- A row on the trail of a program was read. -/
theorem read (hE : Endpoints env new s h) {row : Payment} (hrow : WasRead (trail i h) row) :
    row.sourceNetwork = new.sourceNetwork ∧
      (Unstored h → row.destinationNetwork = new.destinationNetwork) ∧
      (row.status ∈ clearedStates → ¬ Unstored h) :=
  hE.reads _ (mem_of_trail hrow) row rfl

/-- After a read of the cleared row a screening has been stored. -/
theorem stored_of_read (hE : Endpoints env new s h) (hread : ReadCleared (trail i h)) :
    ¬ Unstored h := by
  obtain ⟨row, hrow, hcleared⟩ := hread
  exact (hE.read hrow).2.2 hcleared

/-- As long as nothing is stored the row ends on the network the payment was created with. -/
theorem row_exec (hE : Endpoints env new s h) (hallows : (parties env).Allows (trail i h) ⟨o, r⟩)
    (he : o.exec c s = some (r, s')) (hn : Unstored h) :
    s'.payment.destinationNetwork = new.destinationNetwork := by
  cases o with
  | updatePayment data => exact absurd hn (hE.stored_of_read hallows)
  | transition status next opts =>
    have hkeeps : KeepsNetworks (trail i h) next opts.data :=
      hallows.resolve_left fun hread => hE.stored_of_read hread hn
    rcases networks_of_transition he with hsame | ⟨-, hdest, -⟩
    · rw [hsame]
      exact hE.row hn
    · rw [hdest, hkeeps.1]
      exact hE.row hn
  | _ =>
    rw [(networks_of_exec he (by simp) (by simp)).1]
    exact hE.row hn

/-- The routes end on one of the two networks the payment was created with. -/
theorem routes_exec (hE : Endpoints env new s h) (hG : Gate s h)
    (hallows : (parties env).Allows (trail i h) ⟨o, r⟩) (he : o.exec c s = some (r, s'))
    (hlegal : ∀ status next opts, o = .transition status next opts →
      canTransition status next = true)
    (hevolves : Evolves s s') (routes : List RouteOption)
    (hroutes : s'.payment.quoteJson = some routes) :
    ∀ route ∈ routes, route.destinationNetwork = new.destinationNetwork ∨
      route.destinationNetwork = new.sourceNetwork := by
  -- behind the gate the quote stays as it is
  have hlate : ¬ Unstored h → s.payment.quoteJson = some routes := by
    intro hstored
    have hrank : 2 ≤ s.payment.status.rank := by
      by_contra hlt
      exact hstored (unstored_of_early hG (by omega))
    have hquote := congrArg Prod.fst (hevolves.quote hrank)
    rw [← hroutes]
    exact hquote.symm
  cases o with
  | updatePayment data => exact hE.routes routes (hlate (hE.stored_of_read hallows))
  | transition status next opts =>
    rcases hallows with hread | ⟨-, hquote⟩
    · exact hE.routes routes (hlate (hE.stored_of_read hread))
    · rcases networks_of_transition he with hsame | ⟨hstatus, -, hjson⟩
      · exact hE.routes routes (hsame ▸ hroutes)
      · rw [hroutes] at hjson
        cases hdata : opts.data.quoteJson with
        | none =>
          rw [hdata] at hjson
          exact hE.routes routes hjson.symm
        | some routes' =>
          rw [hdata] at hjson
          obtain rfl : routes = routes' := Option.some.inj hjson
          obtain ⟨rfl, row, hrow, hends⟩ := hquote routes hdata
          have hearly : s.payment.status.rank ≤ 1 := by
            rw [hstatus]
            exact (leads_of_canTransition (hlegal _ _ _ rfl)).rank_le
          obtain ⟨hsource, hdest, -⟩ := hE.read hrow
          rw [← hsource, ← hdest (unstored_of_early hG hearly)]
          exact hends
  | _ =>
    rw [(networks_of_exec he (by simp) (by simp)).2] at hroutes
    exact hE.routes routes hroutes

/-- Wallets that are screened are those on the networks the payment was created with. -/
theorem screened_exec (hE : Endpoints env new s h) (hG : Gate s h)
    (hallows : (parties env).Allows (trail i h) ⟨o, r⟩)
    {senderWallet recipientWallet : Option Wallet}
    (ho : o = .screen senderWallet recipientWallet) :
    senderWallet = walletOnNetwork env.sender.wallets new.sourceNetwork ∧
      recipientWallet = walletOnNetwork env.recipient.wallets new.destinationNetwork := by
  subst ho
  obtain ⟨row, rest, htrail, hsender, hrecipient, ⟨x, hx, hexits⟩, hnone⟩ := hallows
  have hrow : WasRead (trail i h) row := htrail ▸ List.mem_cons_self
  -- whoever stores a screening has made the one exit, and this program has stored none
  have hn : Unstored h := by
    intro e he
    apply Bool.eq_false_iff.mpr
    intro hstores
    have hown := hG.own ⟨x, htrail ▸ List.mem_cons_of_mem _ hx, hexits⟩ he (.inr hstores)
    rw [htrail] at hown
    rcases List.mem_cons.mp hown with heq | hrest
    · rw [heq] at hstores
      cases hstores
    · rw [hnone _ hrest] at hstores
      cases hstores
  obtain ⟨hsource, hdest, -⟩ := hE.read hrow
  exact ⟨hsource ▸ hsender, hdest hn ▸ hrecipient⟩

/-- **Every statement the law allows keeps the ends.** -/
theorem exec (hE : Endpoints env new s h) (hG : Gate s h)
    (hallows : (parties env).Allows (trail i h) ⟨o, r⟩) (he : o.exec c s = some (r, s'))
    (hlegal : ∀ status next opts, o = .transition status next opts →
      canTransition status next = true)
    (hevolves : Evolves s s') : Endpoints env new s' (⟨i, o, r⟩ :: h) where
  source := (identity_sourceNetwork hevolves.identity).trans hE.source
  row hn := hE.row_exec hallows he hn.tail
  reads := by
    intro e hmem row hrow
    rcases List.mem_cons.mp hmem with rfl | hmem
    · obtain rfl := readRow_exec he hrow
      exact ⟨hE.source, fun hn => hE.row hn.tail,
        fun hs hn => stored_of_cleared hG hs hn.tail⟩
    · obtain ⟨hsource, hdest, hcleared⟩ := hE.reads e hmem row hrow
      exact ⟨hsource, fun hn => hdest hn.tail, fun hs hn => hcleared hs hn.tail⟩
  screened := by
    intro e hmem senderWallet recipientWallet hstmt
    rcases List.mem_cons.mp hmem with rfl | hmem
    · exact hE.screened_exec hG hallows hstmt
    · exact hE.screened e hmem _ _ hstmt
  routes := hE.routes_exec hG hallows he hlegal hevolves

end Endpoints

end SettlementOS.Analysis
