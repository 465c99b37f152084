import SettlementOS.Analysis.Pool
import SettlementOS.Results.Shares
import SettlementOS.Results.Terminal

/-!
# Liquidity is not granted twice

An execution that reserves and a parking that subscribes take what they have found free, while
others do the same. Between the two reads of a grant and the grant nothing is locked. What is
reserved after the grant exceeds the balance by no more than the one has grown and the other has
fallen since they were read; and what was reserved can always be read.
-/

set_option autoImplicit false

namespace SettlementOS.Results

open SettlementOS.Computation Service Model Program
open Program.Platform (Setup)
open Analysis.Pool

variable {setup : Setup}

/-- The statement takes units of an asset out of what is free on the network: it reserves them for
a payment, or subscribes them to the fund. -/
inductive Takes (setup : Setup) : Platform.Stmt → AssetSymbol → Treasury.DeployedToken → ℕ → Prop
  | reserve {n leaseId : ℕ} {symbol : AssetSymbol} {amount : String}
      {token : Treasury.DeployedToken} {units : ℕ}
      (htoken : setup.treasury.tokens symbol = some token)
      (hunits : destinationUnits amount token.decimals = .ok units) :
      Takes setup (.payment n (.reserve leaseId symbol setup.treasury.networkId amount))
        symbol token units
  | subscribe {symbol : AssetSymbol} {token : Treasury.DeployedToken} {amount : ℕ}
      (htoken : setup.treasury.tokens symbol = some token)
      (hbacking : token.address = setup.treasury.backing) :
      Takes setup (.treasury (.subscribe amount)) symbol token amount

variable {s : Platform.State} {c c' : (Platform.service setup).Config} {i : ℕ}
  {ch : Platform.Choice} {r : Platform.Request} {o : Platform.Stmt}
  {k : Except Err o.Result → Prog Platform.platformEffects Err Platform.Reply}
  {symbol : AssetSymbol} {token : Treasury.DeployedToken} {units : ℕ}

/-- Every run keeps the law of the pool. -/
theorem lawful (h : (Config.start s).Reaches c) :
    Lawful (fun _ _ => takesFree setup) (fun _ _ _ _ => True) (fun _ _ _ _ => True) c :=
  h.keeps (fun _ _ _ _ _ _ he _ => answers_of_exec he) request_takesFree

/-- A program that takes units has checked them, and nothing it performed hides the check. -/
theorem checked_of_takes (h : (Config.start s).Reaches c')
    {past : List (Entry Platform.platformEffects)} {a : Except Err o.Result}
    (hhistory : c'.world.history = ⟨i, o, a⟩ :: past) (ht : Takes setup o symbol token units) :
    Checked onPlatform symbol token units (trail i past) := by
  obtain ⟨t, -, hallows⟩ := (lawful h).allows (l := []) hhistory
  cases ht with
  | reserve htoken hunits =>
    obtain ⟨token', units', htoken', hunits', hchecked⟩ := hallows rfl
    obtain rfl := Option.some.inj (htoken.symm.trans htoken')
    obtain rfl := Except.ok.inj (hunits.symm.trans hunits')
    exact hchecked
  | subscribe htoken hbacking =>
    obtain ⟨symbol', token', htoken', hbacking', hchecked⟩ := hallows
    obtain rfl := setup.distinct _ _ _ _ htoken htoken' (hbacking.trans hbacking'.symm)
    obtain rfl := Option.some.inj (htoken.symm.trans htoken')
    exact hchecked

/-- What taking units does to the two quantities. -/
theorem moved_of_takes {s s' : Platform.State} {a : Except Err o.Result}
    (h : Platform.exec setup o ch s = some (a, s')) (ht : Takes setup o symbol token units) :
    reserved setup symbol token.decimals s' + balance setup token.address s ≤
      reserved setup symbol token.decimals s + balance setup token.address s' + units := by
  cases ht with
  | reserve htoken hunits =>
    obtain ⟨hreserved, htreasury⟩ := reserved_of_reserve token.decimals h
    have hbalance : balance setup token.address s' = balance setup token.address s := by
      rw [balance, balance, htreasury]
    rw [unitsOf_eq hunits] at hreserved
    omega
  | subscribe htoken hbacking =>
    obtain ⟨hbalance, hpayments⟩ := balance_of_subscribe h
    have hreserved : reserved setup symbol token.decimals s' =
        reserved setup symbol token.decimals s := by
      rw [reserved, reserved, hpayments]
    rw [hbacking]
    omega

/-- **What is granted is covered, but for what moved since it was looked up.** -/
theorem grant_covered (h : (Config.start s).Reaches c)
    (hi : c.threads[i]? = some ⟨r, .perform o k⟩) (hm : c.step (.perform i ch) = some c')
    (ht : Takes setup o symbol token units) :
    ∃ (c₁ c₂ : (Platform.service setup).Config) (b : ℕ) (rows : List String),
      (Config.start s).Reaches c₁ ∧
      c₁.Answered i (.treasury (.balanceOf token.address)) (.ok b) c₂ ∧
      c₂.Answered i (.treasury (.findReservations symbol)) (.ok rows) c ∧
      (units = 0 ∨
        (reserved setup symbol token.decimals c'.world.state : ℤ) -
            balance setup token.address c'.world.state ≤
          (balance setup token.address c₁.world.state - balance setup token.address c.world.state) +
            (reserved setup symbol token.decimals c.world.state -
              reserved setup symbol token.decimals c₂.world.state)) := by
  have hreach := h.tail hm
  rcases Config.step_eq_some hm with ⟨_, hmove, -⟩ | ⟨_, _, _, _, _, a, _, hmove, hi', he, rfl⟩ |
    ⟨_, _, hmove, -⟩
  · cases hmove
  · cases hmove
    obtain ⟨rfl, hrest⟩ := Thread.mk.inj (Option.some.inj (hi.symm.trans hi'))
    cases hrest
    obtain ⟨s', hs, rfl⟩ := World.exec_eq_some.mp he
    have hmoved := moved_of_takes hs ht
    obtain ⟨since, older, b, rows, R, htrail, hrows, hle⟩ := checked_of_takes hreach rfl ht
    obtain ⟨c₂, ch₂, _, hc₂, hanswered₂, htrail₂, hexec₂⟩ := h.performed htrail
    obtain ⟨c₁, ch₁, _, hc₁, hanswered₁, -, hexec₁⟩ :=
      hc₂.performed (htrail₂.trans (List.nil_append _).symm)
    refine ⟨c₁, c₂, b, rows, hc₁, hanswered₁, hanswered₂, ?_⟩
    have hb := balance_of_answer hexec₁
    have hR := reserved_of_answer hexec₂ hrows
    dsimp only
    omega
  · cases hmove

/-- The tokens of the sample's destination network. -/
def tokenAt : AssetSymbol → Contracts.Address
  | .mockUSDC => .ofNat 4
  | .mockJPY => .ofNat 5
  | .mockSGD => .ofNat 6

/-- The sample payment, and a treasury on the network it goes to. -/
def samplePlatform : Setup where
  treasury :=
    { fundedNetwork with
      networkId := "beta"
      tokens := fun symbol => some ⟨tokenAt symbol, 6⟩ }
  accounts _ := ⟨sampleEnv, samplePayment⟩
  decimals := by
    intro id net symbol token hnet htoken
    obtain rfl : sampleNetwork = net := Option.some.inj hnet
    obtain rfl := Option.some.inj htoken
    exact ⟨_, rfl, rfl⟩
  distinct := by
    intro symbol symbol' token token' h h' haddress
    obtain rfl := Option.some.inj h
    obtain rfl := Option.some.inj h'
    revert haddress
    cases symbol <;> cases symbol' <;> decide

/-- Nobody pays yet; a hundred is on hand. -/
def fundedPlatform : Platform.State := ⟨[], hundredOnHand⟩

/-- The payment has found 99.64 free, and then ten are parked. -/
def overtakenRun : List (Platform.service samplePlatform).Move :=
  .outside .create :: .start (.payment 0 (.quote "ops")) :: (List.replicate 7 (.perform 0 {}) ++
    .start (.payment 0 (.execute "ops" none)) :: (List.replicate 12 (.perform 1 {}) ++
      .start (.treasury parkTen) :: List.replicate 10 (.perform 2 {})))

/-- Program `i` is about to reserve this for a payment. -/
def reservesNext (i : ℕ) (amount : String) (c : (Platform.service samplePlatform).Config) : Bool :=
  match c.threads[i]? with
  | some ⟨_, .perform (.payment _ (.reserve _ symbol network a)) _⟩ =>
    symbol == .mockUSDC && network == "beta" && a == amount
  | _ => false

/-- A program that reserves next takes what it reserves. -/
theorem takes_of_reservesNext {i : ℕ} {amount : String}
    {c : (Platform.service samplePlatform).Config} {units : ℕ} (h : reservesNext i amount c = true)
    (hunits : destinationUnits amount 6 = .ok units) :
    ∃ (r : Platform.Request) (o : Platform.Stmt)
      (k : Except Err o.Result → Prog Platform.platformEffects Err Platform.Reply),
      c.threads[i]? = some ⟨r, .perform o k⟩ ∧
        Takes samplePlatform o .mockUSDC ⟨.ofNat 4, 6⟩ units := by
  unfold reservesNext at h
  split at h
  · rename_i r n leaseId symbol network a k hi
    simp only [Bool.and_eq_true, beq_iff_eq] at h
    obtain ⟨⟨rfl, rfl⟩, rfl⟩ := h
    exact ⟨r, _, k, hi, .reserve rfl hunits⟩
  · cases h

/-- Where the overtaken payment reserves. -/
theorem overtaken : ∃ c c', (Service.Config.start (S := Platform.service samplePlatform)
      fundedPlatform).Reaches c ∧ reservesNext 1 "99.64" c = true ∧
    c.step (.perform 1 {}) = some c' ∧
      balance samplePlatform (.ofNat 4) c'.world.state = 90000000 ∧
        reserved samplePlatform .mockUSDC 6 c'.world.state = 99640000 := by
  have hrun : ((Service.Config.start (S := Platform.service samplePlatform) fundedPlatform).run
      overtakenRun).any (fun c => reservesNext 1 "99.64" c && (c.step (.perform 1 {})).any
        fun c' => balance samplePlatform (.ofNat 4) c'.world.state == 90000000 &&
          reserved samplePlatform .mockUSDC 6 c'.world.state == 99640000) = true := by
    decide +kernel
  obtain ⟨c, hc, hP⟩ := (Option.any_eq_true _ _).mp hrun
  obtain ⟨hnext, hstep⟩ := Bool.and_eq_true_iff.mp hP
  obtain ⟨c', hc', hP'⟩ := (Option.any_eq_true _ _).mp hstep
  simp only [Bool.and_eq_true, beq_iff_eq] at hP'
  exact ⟨c, c', ⟨overtakenRun, hc⟩, hnext, hc', hP'.1, hP'.2⟩

/-- The payment that is overtaken reserves what is not there any more: as much as was parked since
it looked. -/
theorem grant_covered_overtaken : ∃ (c c₁ c₂ c' : (Platform.service samplePlatform).Config) (b : ℕ)
    (rows : List String),
    (Config.start (S := Platform.service samplePlatform) fundedPlatform).Reaches c₁ ∧
      c₁.Answered 1 (.treasury (.balanceOf (.ofNat 4))) (.ok b) c₂ ∧
      c₂.Answered 1 (.treasury (.findReservations .mockUSDC)) (.ok rows) c ∧
      c.step (.perform 1 {}) = some c' ∧
      balance samplePlatform (.ofNat 4) c'.world.state < reserved samplePlatform .mockUSDC 6
        c'.world.state ∧
      (reserved samplePlatform .mockUSDC 6 c'.world.state : ℤ) -
          balance samplePlatform (.ofNat 4) c'.world.state ≤
        (balance samplePlatform (.ofNat 4) c₁.world.state -
            balance samplePlatform (.ofNat 4) c.world.state) +
          (reserved samplePlatform .mockUSDC 6 c.world.state -
            reserved samplePlatform .mockUSDC 6 c₂.world.state) := by
  obtain ⟨c, c', hc, hnext, hstep, hbalance, hreserved⟩ := overtaken
  have hunits : destinationUnits "99.64" 6 = .ok 99640000 := by decide +kernel
  obtain ⟨r, o, k, hi, ht⟩ := takes_of_reservesNext hnext hunits
  obtain ⟨c₁, c₂, b, rows, hc₁, hread₁, hread₂, hzero | hbound⟩ := grant_covered hc hi hstep ht
  · cases hzero
  · exact ⟨c, c₁, c₂, c', b, rows, hc₁, hread₁, hread₂, hstep,
      by rw [hbalance, hreserved]; decide, hbound⟩

/-! ## What is reserved can be read -/

/-- What happens by itself writes no reservation. -/
theorem readable_of_outside {s s' : Platform.State} {x : Platform.Outside}
    (h : Platform.outside setup x s = some s') (hs : ∀ p ∈ s.payments, Readable setup p) :
    ∀ p ∈ s'.payments, Readable setup p := by
  cases x with
  | create =>
    cases h
    intro p hp row hrow
    rcases List.mem_append.mp hp with hp | hp
    · exact hs p hp row hrow
    · obtain rfl := List.mem_singleton.mp hp
      cases hrow
  | mine n m =>
    obtain ⟨p', hmine, rfl⟩ := Option.map_eq_some_iff.mp h
    obtain ⟨before, hbefore, hmine⟩ := Option.bind_eq_some_iff.mp hmine
    intro p hp
    rcases List.mem_or_eq_of_mem_set hp with hp | rfl
    · exact hs p hp
    · have hread := hs before (List.mem_of_getElem? hbefore)
      exact fun row hrow => hread row ((Analysis.mine_rows hmine).2.1 ▸ hrow)
  | entities rows =>
    cases h
    exact hs
  | asset msgSender request =>
    obtain ⟨t, -, rfl⟩ := Option.map_eq_some_iff.mp h
    exact hs
  | others tokens =>
    cases h
    exact hs

/-- What payments reserve can still be read after a step. -/
theorem readable_of_step {m : (Platform.service setup).Move} (h : (Config.start s).Reaches c)
    (hm : c.step m = some c') (hc : ∀ p ∈ c.world.state.payments, Readable setup p) :
    ∀ p ∈ c'.world.state.payments, Readable setup p := by
  have hreach := h.tail hm
  rcases Config.step_eq_some hm with ⟨_, -, rfl⟩ | ⟨i, ch, _, o, _, a, _, -, -, he, rfl⟩ |
    ⟨_, _, -, hs, rfl⟩
  · exact hc
  · obtain ⟨s', hs, rfl⟩ := World.exec_eq_some.mp he
    obtain ⟨_, -, hallows⟩ := (lawful hreach).allows (l := []) rfl
    cases o with
    | treasury o =>
      cases hs
      exact hc
    | payment n o =>
      simp only [Platform.exec] at hs
      split at hs
      · rename_i p hp
        obtain ⟨⟨a', p'⟩, hexec, heq⟩ := Option.map_eq_some_iff.mp hs
        cases heq
        have hread := readable_of_exec (hc p (List.mem_of_getElem? hp)) hallows hexec
        intro q hq
        rcases List.mem_or_eq_of_mem_set hq with hq | rfl
        · exact hc q hq
        · exact hread
      · cases hs
  · exact readable_of_outside hs hc

/-- **No reservation stands in the way of the others**: what is reserved on the network can always
be added up. -/
theorem reservations_readable (h : (Config.start s).Reaches c) (hs : s.payments = [])
    (htoken : setup.treasury.tokens symbol = some token) :
    Program.Treasury.reservedUnits ((c.world.state.found setup).reserved symbol) token.decimals =
      .ok (reserved setup symbol token.decimals c.world.state) := by
  refine reservedUnits_of_readable htoken (h.induct
    (P := fun c : (Platform.service setup).Config =>
      ∀ p ∈ c.world.state.payments, Readable setup p) ?_ ?_)
  · simp [Config.start, hs]
  · exact fun c₁ m c₂ hreach hc hm => readable_of_step hreach hm hc

/-- The reservation of the sample payment is added up. -/
theorem reservations_readable_overtaken : ∃ c : (Platform.service samplePlatform).Config,
    (Config.start (S := Platform.service samplePlatform) fundedPlatform).Reaches c ∧
    Program.Treasury.reservedUnits
      ((c.world.state.found samplePlatform).reserved .mockUSDC) 6 = .ok 99640000 := by
  obtain ⟨c, c', hc, -, hstep, -, hreserved⟩ := overtaken
  have hread := reservations_readable (hc.tail hstep) rfl
    (show samplePlatform.treasury.tokens .mockUSDC = some ⟨.ofNat 4, 6⟩ from rfl)
  exact ⟨c', hc.tail hstep, hread.trans (congrArg Except.ok hreserved)⟩

end SettlementOS.Results
