import SettlementOS.Analysis.Positions
import SettlementOS.Analysis.Priced
import SettlementOS.Analysis.Records
import SettlementOS.Results.Shares
import SettlementOS.Results.Terminal

/-!
# Whether records and events go together

A status change and its event are committed together, and so are the changes of the treasury's
positions and theirs: whatever fails, the ones are the others. A credit and its event are two
statements: when the second one fails the credit stays without an event, whatever is done about the
payment later.
-/

set_option autoImplicit false

namespace SettlementOS.Results

open SettlementOS.Computation Service Model Program Analysis

variable {env : Env} {new : NewPayment}

/-! ## The records of a payment -/

/-- In every run each request keeps to the law of credits. -/
theorem Reachable.creditLawful {c : Config env} (h : Reachable env new c) :
    Lawful (S := sagaService env) (fun _ _ => crediting new.id) (fun _ _ _ => Told)
      (fun _ _ _ => Told) c := by
  refine Config.Reaches.keeps_toward ?_ (fun i r => credits_request i r) h
  intro i o ch c₁ c₂ a h₁ _ he _ h₂ _ r row hrow
  obtain rfl := rowOf_exec he hrow
  have hevolves := Reachable.evolves (.refl _) h₂
  exact congrArg Prod.fst hevolves.identity

/-- Along every run the records and the events about them are kept together. -/
theorem Reachable.recordsKept {c : Config env} (h : Reachable env new c) :
    RecordsKept new.id c.world.state c.world.history := by
  refine Config.Reaches.induct
    (P := fun c => RecordsKept new.id c.world.state c.world.history) (recordsKept_created new) ?_ h
  intro c₁ m c₂ hreach hkept hm
  have h₂ : Reachable env new c₂ := Config.Reaches.tail hreach hm
  rcases Config.step_eq_some hm with ⟨r, -, rfl⟩ | ⟨i, ch, r, o, k, a, w, -, hi, he, rfl⟩ |
    ⟨x, s, -, hs, rfl⟩
  · exact hkept
  · obtain ⟨s', hexec, rfl⟩ := World.exec_eq_some.mp he
    obtain ⟨t, -, hallows⟩ := h₂.creditLawful.allows (l := []) (e := ⟨i, o, a⟩) rfl
    exact hkept.performed hallows hexec
  · obtain ⟨hash, network, call, receipt, -, -, rfl⟩ := mine_eq_some hs
    exact hkept.same ⟨rfl, rfl⟩ rfl rfl

/-- The status changes that were committed lead to the status of the row, and the events about it
are theirs. -/
structure StatusesRecorded (new : NewPayment) (c : Config env) : Prop where
  path : Path .draft ((statusChanges c.world.history).map StatusChange.ends)
    c.world.state.payment.status
  events : c.world.state.auditEvents.filter recordsStatus =
    (statusChanges c.world.history).map (StatusChange.record new.id)

/-- **Status changes.** In every run, whatever fails, each status change has its event and each such
event its change, in their order. -/
theorem status_changes_recorded {c : Config env} (h : Reachable env new c) :
    StatusesRecorded new c :=
  ⟨h.recordsKept.path, h.recordsKept.statuses⟩

/-- A payment that is quoted, executed and settled changes its status nine times. -/
theorem status_changes_recorded_completed :
    ∃ c : Config sampleEnv, Reachable sampleEnv samplePayment c ∧
    (statusChanges c.world.history).length = 9 ∧ StatusesRecorded samplePayment c := by
  obtain ⟨c, hc, hP⟩ := reached sampleEnv samplePayment completedRun
    (show ((created sampleEnv samplePayment).run completedRun).any
      (fun c => decide ((statusChanges c.world.history).length = 9)) = true by decide +kernel)
  exact ⟨c, hc, of_decide_eq_true hP, status_changes_recorded hc⟩

/-- Every credit has its event, and every such event its credit. -/
def CreditsRecorded (new : NewPayment) (c : Config env) : Prop :=
  c.world.state.auditEvents.filter recordsCredit =
    c.world.state.ledgerCredits.map (creditRecord new.id)

/-- **Credits.** No event of a credit is there without the credit. When every request has ended, the
credit has its event unless writing it has failed, and then it never gets one. -/
theorem credit_recorded_iff {c : Config env} (h : Reachable env new c) :
    (c.world.state.auditEvents.filter recordsCredit = [] ∨ CreditsRecorded new c) ∧
    ((∀ t ∈ c.threads, t.ended = true) →
      (CreditsRecorded new c ↔ NoneLost c.world.history)) := by
  have hlawful := h.creditLawful
  constructor
  · cases h.recordsKept.credit with
    | uncredited _ hevents _ _ => exact .inl hevents
    | waiting _ _ _ hevents _ _ _ => exact .inl hevents
    | recorded credit hcredits hevents _ _ =>
      refine .inr ?_
      rw [CreditsRecorded, hevents, hcredits]
      rfl
    | lost _ _ hevents _ _ => exact .inl hevents
  · intro hended
    cases h.recordsKept.credit with
    | uncredited hcredits hevents _ hkept =>
      refine iff_of_true ?_ hkept
      rw [CreditsRecorded, hevents, hcredits]
      rfl
    | waiting i credit _ _ hnext _ _ =>
      -- whoever still has an event to write has not ended
      exfalso
      have htold : Told (trail i c.world.history) := by
        by_cases hi : i < c.threads.length
        · have ht : c.threads[i]? = some c.threads[i] := List.getElem?_eq_getElem hi
          have hkeeps := hlawful.keeps i _ ht
          have hdone := hended _ (List.getElem_mem hi)
          generalize c.threads[i] = t at hkeeps hdone
          obtain ⟨r, rest⟩ := t
          cases rest with
          | ret a => exact hkeeps
          | throw e => exact hkeeps
          | perform o k => cases hdone
        · rw [trail_of_unknown fun e he => lt_of_lt_of_le (hlawful.known e he) (not_lt.mp hi)]
          rfl
      rw [htold] at hnext
      cases hnext
    | recorded credit hcredits hevents _ hkept =>
      refine iff_of_true ?_ hkept
      rw [CreditsRecorded, hevents, hcredits]
      rfl
    | lost credit hcredits hevents _ hlost =>
      refine iff_of_false ?_ hlost
      rw [CreditsRecorded, hevents, hcredits]
      exact (List.cons_ne_nil _ _).symm

/-- The sample payment is executed, and the event of its credit fails: the execution is completed
all the same. -/
def untoldRun : List (Move sampleEnv) :=
  quotedRun ++ .start (.execute "ops" none) :: steps 1 14 ++ mine 0 :: steps 1 3 ++
    mine 1 :: steps 1 4 ++ mine 2 :: steps 1 6 ++ mine 3 :: steps 1 3 ++ failure 1 :: steps 1 6

/-- The payment is settled and the recipient credited, and no event says so. -/
theorem credit_recorded_iff_untold : ∃ c : Config sampleEnv, Reachable sampleEnv samplePayment c ∧
    c.world.state.payment.status = .settled ∧ c.world.state.ledgerCredits.length = 1 ∧
    ¬ CreditsRecorded samplePayment c := by
  obtain ⟨c, hc, hP⟩ := reached sampleEnv samplePayment untoldRun
    (show ((created sampleEnv samplePayment).run untoldRun).any
      (fun c => c.threads.all (·.ended) && c.world.history.any failsToTell &&
        decide (c.world.state.payment.status = .settled ∧
          c.world.state.ledgerCredits.length = 1)) = true by decide +kernel)
  simp only [Bool.and_eq_true, List.any_eq_true, decide_eq_true_eq] at hP
  obtain ⟨⟨hended, e, he, hfails⟩, hstatus, hcredits⟩ := hP
  refine ⟨c, hc, hstatus, hcredits, fun hrecorded => ?_⟩
  have hnone := ((credit_recorded_iff hc).2 (List.all_eq_true.mp hended)).mp hrecorded
  rw [hnone e he] at hfails
  cases hfails

/-! ## The positions of the treasury -/

section

open Model.Treasury Program.Treasury

variable {env : Model.Treasury.Env} {s : Model.Treasury.State} {c : (service env).Config}
  {ms : List (service env).Move}

/-- **Positions.** In every run, whatever fails and whatever is reported to have failed, the changes
of the positions have their events, and the events about positions their changes. -/
theorem positions_recorded (h : (Config.start (S := service env) s).run ms = some c) :
    PositionsRecorded s (changesOfRun env s ms) c.world.state :=
  journals_positions.run_start (fun _ request => announces_serve request) h

/-- Ten are parked, and the commit is reported to have failed. -/
def unreportedPark : List (service fundedNetwork).Move :=
  .start parkTen :: (List.replicate 9 (next 0) ++
    [.perform 0 (.unconfirmed (.database "connection lost"))])

/-- The parking has thrown, and the position is there with its event. -/
theorem positions_recorded_unreported : ∃ c, fromHundred unreportedPark = some c ∧
    c.threads.map Thread.threw = [true] ∧ c.world.state.positions.length = 1 ∧
    PositionsRecorded hundredOnHand (changesOfRun fundedNetwork hundredOnHand unreportedPark)
      c.world.state := by
  have hsome : ((fromHundred unreportedPark).any fun c =>
      decide (c.threads.map Thread.threw = [true] ∧ c.world.state.positions.length = 1)) =
        true := by
    decide +kernel
  obtain ⟨c, hc, hrun⟩ := (Option.any_eq_true _ _).mp hsome
  obtain ⟨hthrew, hlength⟩ := of_decide_eq_true hrun
  exact ⟨c, hc, hthrew, hlength, positions_recorded hc⟩

end

end SettlementOS.Results
