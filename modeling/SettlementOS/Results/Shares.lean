import SettlementOS.Analysis.Shares
import SettlementOS.Results.Accruals

/-!
# Whether the rows account for the shares

Two parkings that measure at the same time take each other's shares for their own, and two recalls
that find the same position active redeem it twice. Where no operation moves the shares while a
parking measures them, and none finds a position active that another one has found and not marked,
the active rows hold what the fund holds for the treasury whenever nothing is in flight.
-/

set_option autoImplicit false

namespace SettlementOS.Results

open SettlementOS.Computation Service Model.Treasury Program.Treasury Analysis

variable {env : Env} {s : State} {c : (service env).Config}

/-- Nothing has been parked yet. -/
structure Unparked (env : Env) (s : State) : Prop where
  positions : s.positions = []
  held : sharesHeld env s = 0

/-- Every chain call and every statement has succeeded. -/
def Succeeded (h : List (Entry treasuryEffects)) : Prop := ∀ e ∈ h, ∃ a, e.answer = .ok a

/-- The rows and the fund agree: the active positions hold what the treasury has, and every position
was redeemed at most once, and once if it is recalled. -/
structure Agrees (env : Env) (c : (service env).Config) : Prop where
  total : sharesActive c.world.state.positions = sharesHeld env c.world.state
  once : ∀ p ∈ c.world.state.positions, redemptions p.id c.world.history ≤ 1
  recalled : ∀ p ∈ c.world.state.positions, p.status = .recalled →
    redemptions p.id c.world.history = 1

/-! ## Runs -/

/-- As long as everything succeeds, every operation goes from phase to phase. -/
theorem lawful_shares (hreach : (Config.start (S := service env) s).Reaches c)
    (hok : Succeeded c.world.history) :
    Lawful (S := service env) (fun _ _ => sharesLaw) (fun _ _ _ past => phaseOf past = .idle)
      (fun _ _ _ past => (phaseOf past).Rests) c := by
  refine hreach.keeps_toward ?_ fun _ request => settles_serve request
  intro i o ch c₁ c₂ a _ _ _ hhistory _ hto r
  have hmem : (⟨i, o, a⟩ : Entry treasuryEffects) ∈ c₂.world.history :=
    hhistory ▸ List.mem_cons_self
  exact hok _ (hto.history.subset hmem)

/-- Nothing parked, and nobody who has done anything. -/
theorem balanced_unparked (h : Unparked env s) : Balanced env s 0 [] where
  accounted :=
    { total := by
        rw [h.held, h.positions]
        rfl
      known := fun _ _ => rfl
      ids := fun k p hk => by
        rw [h.positions] at hk
        cases hk
      read := fun _ _ hi => by cases hi
      stored := fun _ _ hi => by cases hi
      alone := fun _ _ _ _ hi _ _ => by cases hi }
  counted :=
    { once := fun p hp => by
        rw [h.positions] at hp
        cases hp
      fresh := fun _ _ => rfl }

/-- A move of the outside leaves the rows and the shares alone. -/
theorem untouched_interfere {x : Other} {s s' : State} (h : interfere env x s = some s') :
    Untouched env s s' := by
  cases x with
  | reservations rows =>
    cases h
    exact ⟨rfl, rfl⟩
  | entities rows =>
    cases h
    exact ⟨rfl, rfl⟩
  | asset msgSender request =>
    simp only [interfere] at h
    split at h
    · cases h
    · split at h
      · cases h
      · cases h
        exact ⟨rfl, rfl⟩

/-- Along every run in which everything succeeds and the operations keep apart, the rows account for
the shares. -/
theorem balanced_of_run (hs : Unparked env s)
    (hreach : (Config.start (S := service env) s).Reaches c) (hok : Succeeded c.world.history)
    (hapart : KeptApart c.world.history) :
    Balanced env c.world.state c.threads.length c.world.history := by
  refine hreach.induct (P := fun c₁ => c₁.Reaches c →
    Balanced env c₁.world.state c₁.threads.length c₁.world.history)
    (fun _ => balanced_unparked hs) ?_ (Config.Reaches.refl c)
  intro c₁ m c₂ hreach₁ ih hm hto
  have hb := ih (((Config.Reaches.refl c₁).tail hm).trans hto)
  have hhistory := hto.history
  have hlawful := lawful_shares (hreach₁.tail hm) fun e he => hok e (hhistory.subset he)
  have hapart₂ : KeptApart c₂.world.history := by
    obtain ⟨l, hl⟩ := hhistory
    rw [← hl] at hapart
    exact hapart.of_append
  rcases Config.step_eq_some hm with ⟨r, -, rfl⟩ | ⟨i, ch, r, o, k, a, w, -, hi, he, rfl⟩ |
    ⟨x, s', -, hx, rfl⟩
  · rw [List.length_append, List.length_singleton]
    exact ⟨hb.accounted.arrive, hb.counted⟩
  · obtain ⟨s', hexec, rfl⟩ := World.exec_eq_some.mp he
    obtain ⟨b, hb'⟩ : ∃ b, a = .ok b := hok _ (hhistory.subset List.mem_cons_self)
    subst hb'
    have hperform := perform_of_exec (Option.some.inj hexec)
    obtain ⟨t, -, hallows⟩ := hlawful.allows (l := []) (e := ⟨i, o, .ok b⟩) rfl
    rw [List.length_set]
    exact hb.performed (List.getElem?_eq_some_iff.mp hi).1 hallows hperform hapart₂
  · have hsame := untouched_interfere hx
    exact ⟨hb.accounted.untouched hsame, hb.counted.congr hsame.positions fun _ _ => Iff.rfl⟩

/-- **Rows and shares.** In every run in which everything succeeds, no operation moves the shares
while a parking measures them and none finds a position active that another one has found and not
marked, the rows and the fund agree whenever no operation is in flight. -/
theorem shares_agree (hs : Unparked env s) (hreach : (Config.start (S := service env) s).Reaches c)
    (hok : Succeeded c.world.history) (hapart : KeptApart c.world.history)
    (hended : ∀ t ∈ c.threads, t.ended = true) : Agrees env c := by
  have hb := balanced_of_run hs hreach hok hapart
  have hlawful := lawful_shares hreach hok
  have hrests : ∀ i, (phasesOf c.world.history i).Rests := by
    intro i
    by_cases hi : i < c.threads.length
    · have ht : c.threads[i]? = some c.threads[i] := List.getElem?_eq_getElem hi
      have hkeeps := hlawful.keeps i _ ht
      have hdone := hended _ (List.getElem_mem hi)
      generalize c.threads[i] = t at hkeeps hdone
      obtain ⟨r, rest⟩ := t
      cases rest with
      | ret a => exact Phase.rests_of_idle hkeeps
      | throw e => exact hkeeps
      | perform o k => cases hdone
    · exact Phase.rests_of_idle (hb.accounted.known i (not_lt.mp hi))
  refine ⟨?_, fun p hp => (hb.counted.once p hp).1, fun p hp hrecalled => ?_⟩
  · have hnone : allUnwritten (sharesHeld env c.world.state) c.threads.length
        (phasesOf c.world.history) = 0 :=
      Finset.sum_eq_zero fun i _ => (hrests i).unwritten _
    have htotal := hb.accounted.total
    omega
  · exact (hb.counted.once p hp).2.mpr (.inl hrecalled)

/-! ## Two parkings -/

/-- The fund as it was deployed, and a hundred on hand. -/
def hundredOnHand : State :=
  { freshFund with
    fund :=
      { Contracts.Fund.deployed (.ofNat 2) with
        asset :=
          { totalSupply := 100000000
            balanceOf := Function.update (fun _ => 0) (.ofNat 3) 100000000
            allowance := fun _ _ => 0 } } }

/-- Parking ten. -/
def parkTen : Request := .park ⟨"mockUSDC", "10", none⟩

/-- One parking and its recall. -/
def parkedAndRecalled : List (service fundedNetwork).Move :=
  .start parkTen :: (List.replicate 10 (next 0) ++
    .start (.recallPosition 0) :: List.replicate 7 (next 1))

/-- Two parkings that have both measured before either subscribes. -/
def parkedAtOnce : List (service fundedNetwork).Move :=
  .start parkTen :: .start parkTen :: (List.replicate 7 (next 0) ++ List.replicate 6 (next 1) ++
    [next 0, next 1, next 0, next 1, next 0, next 1])

/-- Where these moves lead. -/
def fromHundred (moves : List (service fundedNetwork).Move) :
    Option (service fundedNetwork).Config :=
  (Config.start (S := service fundedNetwork) hundredOnHand).run moves

/-- The sample fund holds no shares of the treasury. -/
theorem unparked_hundredOnHand : Unparked fundedNetwork hundredOnHand where
  positions := rfl
  held := rfl

/-- Every statement has succeeded, and nothing is in flight. -/
def allDone (c : (service env).Config) : Bool :=
  c.world.history.all (fun e => e.answer.isOk) && c.threads.all fun t => t.ended

/-- A run in which all is done has succeeded. -/
theorem succeeded_of_allDone (h : allDone c = true) : Succeeded c.world.history := by
  intro e he
  have hok := List.all_eq_true.mp (Bool.and_eq_true_iff.mp h).1 e he
  obtain ⟨i, o, r⟩ := e
  cases r with
  | ok a => exact ⟨a, rfl⟩
  | error e => cases hok

/-- A run in which all is done has ended. -/
theorem ended_of_allDone (h : allDone c = true) : ∀ t ∈ c.threads, t.ended = true :=
  List.all_eq_true.mp (Bool.and_eq_true_iff.mp h).2

/-- A parking and then its recall: ten are bought, redeemed once, and marked. -/
theorem shares_agree_in_turn : ∃ c, fromHundred parkedAndRecalled = some c ∧
    c.world.state.positions.length = 1 ∧ Agrees fundedNetwork c := by
  have hsome : ((fromHundred parkedAndRecalled).any fun c => allDone c &&
      (decide (KeptApart c.world.history) &&
        decide (c.world.state.positions.length = 1))) = true := by decide +kernel
  obtain ⟨c, hc, hrun⟩ := (Option.any_eq_true _ _).mp hsome
  simp only [Bool.and_eq_true, decide_eq_true_eq] at hrun
  obtain ⟨hdone, hapart, hlength⟩ := hrun
  exact ⟨c, hc, hlength, shares_agree unparked_hundredOnHand ⟨_, hc⟩ (succeeded_of_allDone hdone)
    hapart (ended_of_allDone hdone)⟩

/-- Two parkings at once: each records the shares of both, and the rows hold twice what the fund
does. -/
theorem shares_at_once_disagree :
    ¬ ∀ (env : Env) (s : State) (c : (service env).Config), Unparked env s →
      (Config.start (S := service env) s).Reaches c → Succeeded c.world.history →
      (∀ t ∈ c.threads, t.ended = true) → Agrees env c := by
  intro h
  have hsome : ((fromHundred parkedAtOnce).any fun c => allDone c &&
      decide (sharesActive c.world.state.positions = 40000000 ∧
        sharesHeld fundedNetwork c.world.state = 20000000)) = true := by decide +kernel
  obtain ⟨c, hc, hrun⟩ := (Option.any_eq_true _ _).mp hsome
  simp only [Bool.and_eq_true, decide_eq_true_eq] at hrun
  obtain ⟨hdone, hactive, hheld⟩ := hrun
  have hagrees := h fundedNetwork hundredOnHand c unparked_hundredOnHand ⟨_, hc⟩
    (succeeded_of_allDone hdone) (ended_of_allDone hdone)
  have htotal := hagrees.total
  rw [hactive, hheld] at htotal
  revert htotal
  decide

end SettlementOS.Results
