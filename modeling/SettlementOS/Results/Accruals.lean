import SettlementOS.Analysis.Accruals

/-!
# Whether accruals add up

Two calls that both read the index before either writes it write the same next day, and the fund
takes it twice: both report a day of yield, and one has passed. Otherwise every call that reports
an accrual has moved the index by a day.
-/

set_option autoImplicit false

namespace SettlementOS.Results

open SettlementOS.Computation Service Model.Treasury Program.Treasury Analysis

variable {env : Env}

/-- A call that has accrued and returned. -/
def reportsAccrual (t : (service env).Thread) : Bool :=
  match t.rest with
  | .ret (.accrued _) => true
  | _ => false

/-- All calls have ended, those that accrue at this rate. -/
structure Finished (rate : ℤ) (c : (service env).Config) : Prop where
  ended : ∀ t ∈ c.threads, t.ended = true
  rate : ∀ t ∈ c.threads, ∀ r, t.request = .accrueDaily r → r = rate

/-- No transaction was left unconfirmed, and what threw had not accrued. -/
structure Reported (moves : List (service env).Move) (c : (service env).Config) : Prop where
  confirmed : ∀ m ∈ moves, Confirmed m
  threw : ∀ i t, c.threads[i]? = some t → t.threw = true →
    (trail i c.world.history).countP landed = 0

/-- As many accruals have taken place as calls have reported one. -/
theorem accruals_eq_reported {rate : ℤ} {s : State} {moves : List (service env).Move}
    {c : (service env).Config} (hrun : (Config.start (S := service env) s).run moves = some c)
    (hfinished : Finished rate c) (hreported : Reported moves c) :
    accruals c.world.history = c.threads.countP reportsAccrual := by
  have hlawful := lawful_days ⟨moves, hrun⟩
  refine countP_history hlawful.known fun i t ht => ?_
  have hkeeps := hlawful.keeps i t ht
  have hended := hfinished.ended t (List.mem_of_getElem? ht)
  have hthrew := hreported.threw i t ht
  unfold reportsAccrual
  obtain ⟨request, rest⟩ := t
  cases rest with
  | ret response =>
    have hcount : (trail i c.world.history).countP landed = accruedBy response := hkeeps
    rw [hcount]
    cases response <;> rfl
  | throw e =>
    rw [hthrew rfl]
    rfl
  | perform o k => cases hended

/-- The index has moved by a day for every accrual that was reported exactly where it gains nothing
in a day, or no accrual took place between another one and what its call had read. -/
theorem accruals_add_up_iff {rate : ℤ} {s : State} {moves : List (service env).Move}
    {c : (service env).Config} (hrun : (Config.start (S := service env) s).run moves = some c)
    (hfinished : Finished rate c) (hreported : Reported moves c) :
    indexOf c.world.state = (nextDay rate)^[c.threads.countP reportsAccrual] (indexOf s) ↔
      nextDay rate (indexOf s) = indexOf s ∨ ¬ Overlapped c.world.history := by
  have hdated := dated_of_run hreported.confirmed hrun hfinished.rate
  obtain ⟨hindex, -⟩ := index_of_run hreported.confirmed hrun
  rw [hindex, ← accruals_eq_reported hrun hfinished hreported]
  exact days_iff hdated

/-! ## Two calls -/

/-- A network with a fund of which the operator is account 2 and the treasury account 3. -/
def fundedNetwork : Env where
  networkId := "base-sepolia"
  fund := .ofNat 1
  listed := true
  backing := .ofNat 4
  tokens := fun symbol => if symbol = .mockUSDC then some ⟨.ofNat 4, 6⟩ else none
  signers := ⟨.ofNat 2, .ofNat 3⟩

/-- The fund as it was deployed, and nothing else. -/
def freshFund : State where
  positions := []
  reservations := []
  entities := []
  events := []
  fund := Contracts.Fund.deployed (.ofNat 2)
  others := fun _ => .deployed
  logs := []
  sent := 0

/-- The next statement of a call, and it succeeds. -/
def next (i : ℕ) : (service fundedNetwork).Move := .perform i .done

/-- One call after the other. -/
def inTurn : List (service fundedNetwork).Move :=
  [.start (.accrueDaily mmfAnnualRateBps), next 0, next 0, next 0,
    .start (.accrueDaily mmfAnnualRateBps), next 1, next 1, next 1]

/-- Both calls read before either accrues. -/
def atOnce : List (service fundedNetwork).Move :=
  [.start (.accrueDaily mmfAnnualRateBps), .start (.accrueDaily mmfAnnualRateBps), next 0, next 1,
    next 0, next 1, next 0, next 1]

/-- Where these moves lead. -/
def after (moves : List (service fundedNetwork).Move) : Option (service fundedNetwork).Config :=
  (Config.start (S := service fundedNetwork) freshFund).run moves

/-- All calls accrue at the rate, and have returned. -/
def smooth (rate : ℤ) (c : (service env).Config) : Bool :=
  c.threads.all fun t => decide (t.request = .accrueDaily rate) && t.ended && !t.threw

/-- In a smooth run every call accrues at the rate, and has ended well. -/
theorem smooth_thread {rate : ℤ} {c : (service env).Config} (h : smooth rate c = true)
    {t : (service env).Thread} (ht : t ∈ c.threads) :
    t.request = .accrueDaily rate ∧ t.ended = true ∧ t.threw = false := by
  have hall := List.all_eq_true.mp h t ht
  simp only [Bool.and_eq_true, decide_eq_true_eq, Bool.not_eq_true'] at hall
  exact ⟨hall.1.1, hall.1.2, hall.2⟩

/-- A smooth run is finished. -/
theorem finished_of_smooth {rate : ℤ} {c : (service env).Config} (h : smooth rate c = true) :
    Finished rate c := by
  refine ⟨fun t ht => (smooth_thread h ht).2.1, fun t ht r hr => ?_⟩
  rw [(smooth_thread h ht).1] at hr
  exact (Request.accrueDaily.inj hr).symm

/-- A smooth run of confirmed moves is reported. -/
theorem reported_of_smooth {rate : ℤ} {c : (service env).Config} (h : smooth rate c = true)
    {moves : List (service env).Move} (hmoves : ∀ m ∈ moves, Confirmed m) : Reported moves c := by
  refine ⟨hmoves, fun i t ht hthrew => ?_⟩
  have hnot := (smooth_thread h (List.mem_of_getElem? ht)).2.2
  rw [hthrew] at hnot
  cases hnot

/-- One call after the other: the index moves by two days. -/
theorem accruals_add_up_in_turn : ∃ c, after inTurn = some c ∧
    (indexOf c.world.state =
        (nextDay mmfAnnualRateBps)^[c.threads.countP reportsAccrual] (indexOf freshFund) ↔
      nextDay mmfAnnualRateBps (indexOf freshFund) = indexOf freshFund ∨
        ¬ Overlapped c.world.history) := by
  have hsome : ((after inTurn).any (smooth mmfAnnualRateBps)) = true := by decide +kernel
  obtain ⟨c, hc, hsmooth⟩ := (Option.any_eq_true _ _).mp hsome
  have hmoves : ∀ m ∈ inTurn, Confirmed m := by simp [inTurn, next, Confirmed]
  exact ⟨c, hc, accruals_add_up_iff hc (finished_of_smooth hsmooth)
    (reported_of_smooth hsmooth hmoves)⟩

/-- Both at once: two calls report a day, and one day has passed. -/
theorem accrual_at_once_is_lost :
    ¬ ∀ (env : Env) (rate : ℤ) (s : State) (moves : List (service env).Move)
        (c : (service env).Config), (Config.start (S := service env) s).run moves = some c →
      Finished rate c → Reported moves c →
      indexOf c.world.state = (nextDay rate)^[c.threads.countP reportsAccrual] (indexOf s) := by
  intro h
  have hsome : ((after atOnce).any fun c => smooth mmfAnnualRateBps c &&
      decide (indexOf c.world.state = 1000095890410958904 ∧
        c.threads.countP reportsAccrual = 2)) = true := by decide +kernel
  obtain ⟨c, hc, hrun⟩ := (Option.any_eq_true _ _).mp hsome
  simp only [Bool.and_eq_true, decide_eq_true_eq] at hrun
  obtain ⟨hsmooth, hindex, hcount⟩ := hrun
  have hmoves : ∀ m ∈ atOnce, Confirmed m := by simp [atOnce, next, Confirmed]
  have hlost := h fundedNetwork mmfAnnualRateBps freshFund atOnce c hc (finished_of_smooth hsmooth)
    (reported_of_smooth hsmooth hmoves)
  rw [hindex, hcount] at hlost
  revert hlost
  decide

end SettlementOS.Results
