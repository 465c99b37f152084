import SettlementOS.Analysis.Crediting
import SettlementOS.Analysis.Transactions

/-!
# The records of a payment and the events about them

Every status change is committed with its event. A credit is committed first and its event second:
as long as its request has not performed the next statement the event is missing, and when that
statement fails it is missing for good, since whoever comes later finds the credit and writes
neither.
-/

set_option autoImplicit false

namespace SettlementOS.Analysis

open SettlementOS.Computation Service Model Program

/-! ## Status changes -/

/-- A status change. -/
structure StatusChange where
  status : PaymentStatus
  next : PaymentStatus
  opts : TransitionOpts

namespace StatusChange

/-- The two statuses. -/
def ends (change : StatusChange) : Change := (change.status, change.next)

/-- Its event. -/
def record (id : String) (change : StatusChange) : AuditRecord :=
  transitionRecord id change.status change.next change.opts

end StatusChange

/-- The status change a statement committed. -/
def statusChange : Event sagaEffects → Option StatusChange
  | ⟨.transition status next opts, .ok (some _)⟩ => some ⟨status, next, opts⟩
  | _ => none

/-- The status changes that were committed, oldest first. -/
def statusChanges : History → List StatusChange
  | [] => []
  | e :: h => statusChanges h ++ (statusChange ⟨e.stmt, e.answer⟩).toList

/-- What a statement does to the row and to what is said of its status. -/
structure StatusTold (s : State) (e : Event sagaEffects) (s' : State) : Prop where
  id : s'.payment.id = s.payment.id
  path : Path s.payment.status ((statusChange e).toList.map StatusChange.ends) s'.payment.status
  statuses : s'.auditEvents.filter recordsStatus = s.auditEvents.filter recordsStatus ++
    (statusChange e).toList.map (StatusChange.record s.payment.id)

/-- What a statement leaves alone of the credits. -/
structure SameCredits (s s' : State) : Prop where
  credits : s'.ledgerCredits = s.ledgerCredits
  events : s'.auditEvents.filter recordsCredit = s.auditEvents.filter recordsCredit

variable {env : Env} {id : String} {s s' : State} {o : Stmt} {r : Except Err o.Result}

/-- A statement that changes nothing of the status says nothing of it. -/
theorem statusTold_of_same {e : Event sagaEffects} (h : statusChange e = none)
    (hid : s'.payment.id = s.payment.id) (hstatus : s'.payment.status = s.payment.status)
    (hevents : s'.auditEvents.filter recordsStatus = s.auditEvents.filter recordsStatus) :
    StatusTold s e s' where
  id := hid
  path := by
    rw [h]
    exact hstatus.symm
  statuses := by rw [h, hevents, Option.toList_none, List.map_nil, List.append_nil]

/-- A detail that opens with a `from` goes on opening with it. -/
theorem spread_from {a b : Detail} (h : (a.head?.any fun kv => kv.1 == "from") = true) :
    ((Detail.spread a b).head?.any fun kv => kv.1 == "from") = true := by
  induction b generalizing a with
  | nil => exact h
  | cons kv b ih =>
    refine ih ?_
    cases a with
    | nil => cases h
    | cons first a =>
      simp only [Detail.set]
      split
      · exact h
      · exact h

/-- The event of a status change says so. -/
theorem recordsStatus_transition (id : String) (status next : PaymentStatus)
    (opts : TransitionOpts) : recordsStatus (transitionRecord id status next opts) = true :=
  spread_from (spread_from rfl)

/-- An event more, and whether it is of the kind. -/
theorem filter_concat_true {f : AuditRecord → Bool} {l : List AuditRecord} {record : AuditRecord}
    (h : f record = true) : (l ++ [record]).filter f = l.filter f ++ [record] := by
  rw [List.filter_append, List.filter_cons_of_pos h, List.filter_nil]

/-- Another event leaves those of a kind as they were. -/
theorem filter_concat_false {f : AuditRecord → Bool} {l : List AuditRecord} {record : AuditRecord}
    (h : f record = false) : (l ++ [record]).filter f = l.filter f := by
  rw [List.filter_append, List.filter_cons_of_neg (Bool.eq_false_iff.mp h), List.filter_nil,
    List.append_nil]

/-- A plain status change is told with its event, and leaves the credits alone. -/
theorem told_transition {status next : PaymentStatus} {opts : TransitionOpts}
    (hcan : canTransition status next = true) (h : PlainChange next opts) :
    StatusTold s ⟨.transition status next opts, .ok (s.transition status next opts).1⟩
      (s.transition status next opts).2 ∧ SameCredits s (s.transition status next opts).2 := by
  unfold State.transition
  split
  · rename_i hstatus
    refine ⟨⟨rfl, ⟨hstatus.symm, hcan, ?_⟩, ?_⟩, rfl, ?_⟩
    · exact (apply_status s.payment next opts h.1).symm
    · exact filter_concat_true (recordsStatus_transition s.payment.id status next opts)
    · exact filter_concat_false h.2
  · exact ⟨statusTold_of_same rfl rfl rfl rfl, rfl, rfl⟩

/-- An error changes no status. -/
theorem statusChange_error (o : Stmt) (e : Err) : statusChange ⟨o, .error e⟩ = none := by
  cases o <;> rfl

/-- What a mundane statement changes. -/
theorem told_of_exec {ch : Choice} (ho : Mundane o) (he : o.exec ch s = some (r, s')) :
    StatusTold s ⟨o, r⟩ s' ∧ SameCredits s s' := by
  unfold Stmt.exec at he
  split at he
  · cases he
    exact ⟨statusTold_of_same (statusChange_error _ _) rfl rfl rfl, rfl, rfl⟩
  · cases o with
    | audit record =>
      obtain ⟨hstatus, hcredit⟩ := Bool.or_eq_false_iff.mp ho
      cases he
      exact ⟨statusTold_of_same rfl rfl rfl (filter_concat_false hstatus), rfl,
        filter_concat_false hcredit⟩
    | updatePayment data =>
      have hstatus : (s.payment.apply data).status = s.payment.status := by
        have hnone : data.status = none := ho
        simp only [Payment.apply, hnone, Option.getD_none]
      cases he
      exact ⟨statusTold_of_same rfl rfl hstatus rfl, rfl, rfl⟩
    | transition status next opts =>
      cases he
      exact told_transition ho.1 ho.2
    | createLedgerCredit credit => exact ho.elim
    | claimLease leaseId status =>
      simp only [Stmt.perform] at he
      split at he <;> cases he <;> exact ⟨statusTold_of_same rfl rfl rfl rfl, rfl, rfl⟩
    | releaseLease leaseId =>
      simp only [Stmt.perform] at he
      split at he <;> cases he <;> exact ⟨statusTold_of_same rfl rfl rfl rfl, rfl, rfl⟩
    | reserve leaseId asset network amount =>
      simp only [Stmt.perform, State.reserve] at he
      split at he <;> cases he <;> exact ⟨statusTold_of_same rfl rfl rfl rfl, rfl, rfl⟩
    | updateReservation status =>
      simp only [Stmt.perform] at he
      split at he <;> cases he <;> exact ⟨statusTold_of_same rfl rfl rfl rfl, rfl, rfl⟩
    | recallForPayment network asset amount =>
      simp only [Stmt.perform] at he
      split at he <;> cases he <;> exact ⟨statusTold_of_same rfl rfl rfl rfl, rfl, rfl⟩
    | waitForTransactionReceipt network hash =>
      simp only [Stmt.perform] at he
      split at he <;> cases he
      exact ⟨statusTold_of_same rfl rfl rfl rfl, rfl, rfl⟩
    | getTransactionReceipt network hash =>
      simp only [Stmt.perform] at he
      split at he <;> cases he <;> exact ⟨statusTold_of_same rfl rfl rfl rfl, rfl, rfl⟩
    | _ =>
      cases he
      exact ⟨statusTold_of_same rfl rfl rfl rfl, rfl, rfl⟩

/-! ## Credits -/

/-- The event of a credit was to be written, and was not. -/
def failsToTell : Entry sagaEffects → Bool
  | ⟨_, .audit record, .error _⟩ => recordsCredit record
  | _ => false

/-- No event of a credit has failed. -/
def NoneLost (h : History) : Prop := ∀ e ∈ h, failsToTell e = false

/-- Nobody has credited the recipient with his last statement. -/
def AllTold (h : History) : Prop := ∀ i, Told (trail i h)

/-- How far the credit and its event have got. -/
inductive CreditStage (id : String) (s : State) (h : History) : Prop
  /-- there is no credit -/
  | uncredited (hcredits : s.ledgerCredits = []) (hevents : s.auditEvents.filter recordsCredit = [])
      (htold : AllTold h) (hkept : NoneLost h)
  /-- program `i` is about to write its event -/
  | waiting (i : ℕ) (credit : LedgerCredit) (hcredits : s.ledgerCredits = [credit])
      (hevents : s.auditEvents.filter recordsCredit = []) (hnext : untold (trail i h) = some credit)
      (htold : ∀ j, j ≠ i → Told (trail j h)) (hkept : NoneLost h)
  /-- it has its event -/
  | recorded (credit : LedgerCredit) (hcredits : s.ledgerCredits = [credit])
      (hevents : s.auditEvents.filter recordsCredit = [creditRecord id credit])
      (htold : AllTold h) (hkept : NoneLost h)
  /-- its event has failed -/
  | lost (credit : LedgerCredit) (hcredits : s.ledgerCredits = [credit])
      (hevents : s.auditEvents.filter recordsCredit = []) (htold : AllTold h)
      (hlost : ¬ NoneLost h)

variable {i : ℕ} {h : History}

/-- Only an event of a credit can be lost. -/
theorem noneLost_cons {e : Entry sagaEffects} (he : failsToTell e = false) :
    NoneLost (e :: h) ↔ NoneLost h := by
  constructor
  · exact fun hall e' he' => hall e' (List.mem_cons_of_mem _ he')
  · intro hall e' he'
    rcases List.mem_cons.mp he' with rfl | hmem
    · exact he
    · exact hall e' hmem

/-- A trail goes on with what its program performs. -/
theorem trail_performed : trail i (⟨i, o, r⟩ :: h) = ⟨o, r⟩ :: trail i h := trail_own rfl

/-- A statement that is no credit leaves its program with nothing to tell. -/
theorem told_cons (hown : Told (⟨o, r⟩ :: trail i h)) {j : ℕ} (hj : j = i ∨ Told (trail j h)) :
    Told (trail j (⟨i, o, r⟩ :: h)) := by
  by_cases hij : i = j
  · subst hij
    rw [trail_performed]
    exact hown
  · rw [trail_other hij]
    exact hj.resolve_left (Ne.symm hij)

/-- A statement that leaves the credits and their events alone. -/
theorem CreditStage.frame (hstage : CreditStage id s h) (hsame : SameCredits s s')
    (hpast : Told (trail i h)) (hown : Told (⟨o, r⟩ :: trail i h))
    (hfails : failsToTell ⟨i, o, r⟩ = false) : CreditStage id s' (⟨i, o, r⟩ :: h) := by
  have hkeep : AllTold h → AllTold (⟨i, o, r⟩ :: h) := fun htold j =>
    told_cons hown (.inr (htold j))
  cases hstage with
  | uncredited hcredits hevents htold hkept =>
    exact .uncredited (hsame.credits.trans hcredits) (hsame.events.trans hevents) (hkeep htold)
      ((noneLost_cons hfails).mpr hkept)
  | waiting j credit hcredits hevents hnext htold hkept =>
    have hne : i ≠ j := by
      rintro rfl
      rw [hpast] at hnext
      cases hnext
    refine .waiting j credit (hsame.credits.trans hcredits) (hsame.events.trans hevents) ?_
      (fun k hk => told_cons hown (.inr (htold k hk))) ((noneLost_cons hfails).mpr hkept)
    rw [trail_other hne]
    exact hnext
  | recorded credit hcredits hevents htold hkept =>
    exact .recorded credit (hsame.credits.trans hcredits) (hsame.events.trans hevents) (hkeep htold)
      ((noneLost_cons hfails).mpr hkept)
  | lost credit hcredits hevents htold hlost =>
    exact .lost credit (hsame.credits.trans hcredits) (hsame.events.trans hevents) (hkeep htold)
      (mt (noneLost_cons hfails).mp hlost)

/-- A credit. -/
theorem CreditStage.credit {credit : LedgerCredit} {ch : Choice} {r : Except Err Unit}
    (hstage : CreditStage id s h) (hpast : Told (trail i h))
    (he : (Stmt.createLedgerCredit credit).exec ch s = some (r, s')) :
    CreditStage id s' (⟨i, .createLedgerCredit credit, r⟩ :: h) := by
  have hfailed : ∀ e : Err, CreditStage id s (⟨i, .createLedgerCredit credit, .error e⟩ :: h) :=
    fun e => hstage.frame ⟨rfl, rfl⟩ hpast rfl rfl
  unfold Stmt.exec at he
  split at he
  · cases he
    exact hfailed _
  · simp only [Stmt.perform] at he
    split at he
    · rename_i hempty
      cases he
      have hnone : s.ledgerCredits = [] := List.isEmpty_iff.mp hempty
      cases hstage with
      | uncredited hcredits hevents htold hkept =>
        refine .waiting i credit rfl hevents ?_ (fun j hj => ?_)
          ((noneLost_cons rfl).mpr hkept)
        · rw [trail_performed]
          rfl
        · rw [trail_other (Ne.symm hj)]
          exact htold j
      | waiting j credit' hcredits => simp [hnone] at hcredits
      | recorded credit' hcredits => simp [hnone] at hcredits
      | lost credit' hcredits => simp [hnone] at hcredits
    · cases he
      exact hfailed _

/-- The event of a credit. -/
theorem CreditStage.event {credit : LedgerCredit} {ch : Choice} {r : Except Err Unit}
    (hstage : CreditStage id s h) (hpast : untold (trail i h) = some credit)
    (he : (Stmt.audit (creditRecord id credit)).exec ch s = some (r, s')) :
    CreditStage id s' (⟨i, .audit (creditRecord id credit), r⟩ :: h) := by
  have habsurd : ¬ AllTold h := by
    intro htold
    rw [htold i] at hpast
    cases hpast
  cases hstage with
  | waiting j credit' hcredits hevents hnext htold hkept =>
    obtain rfl : i = j := by
      by_contra hne
      rw [htold i hne] at hpast
      cases hpast
    obtain rfl : credit = credit' := Option.some.inj (hpast.symm.trans hnext)
    have hall : ∀ r : Except Err Unit,
        AllTold (⟨i, .audit (creditRecord id credit), r⟩ :: h) := by
      intro r j
      have hown : Told (⟨.audit (creditRecord id credit), r⟩ :: trail i h) := by cases r <;> rfl
      refine told_cons hown ?_
      by_cases hj : j = i
      · exact .inl hj
      · exact .inr (htold j hj)
    unfold Stmt.exec at he
    split at he
    · cases he
      refine .lost credit hcredits hevents (hall _) fun hnone => ?_
      exact Bool.noConfusion (hnone _ List.mem_cons_self)
    · cases he
      refine .recorded credit hcredits ?_ (hall _) ((noneLost_cons rfl).mpr hkept)
      rw [filter_concat_true rfl, hevents, List.nil_append]
  | uncredited _ _ htold _ => exact absurd htold habsurd
  | recorded _ _ _ htold _ => exact absurd htold habsurd
  | lost _ _ _ htold _ => exact absurd htold habsurd

/-! ## All records -/

/-- The records of a payment, with the events about them. -/
structure RecordsKept (id : String) (s : State) (h : History) : Prop where
  named : s.payment.id = id
  path : Path .draft ((statusChanges h).map StatusChange.ends) s.payment.status
  statuses : s.auditEvents.filter recordsStatus = (statusChanges h).map (StatusChange.record id)
  credit : CreditStage id s h

/-- A created payment has its records. -/
theorem recordsKept_created (new : NewPayment) : RecordsKept new.id (State.created new) [] where
  named := rfl
  path := rfl
  statuses := rfl
  credit := .uncredited rfl rfl (fun _ => rfl) fun _ he => (List.not_mem_nil he).elim

/-- A statement that keeps what is said of the status, and how far the credit has got. -/
theorem RecordsKept.step (hkept : RecordsKept id s h) (htold : StatusTold s ⟨o, r⟩ s')
    (hstage : CreditStage id s' (⟨i, o, r⟩ :: h)) : RecordsKept id s' (⟨i, o, r⟩ :: h) where
  named := htold.id.trans hkept.named
  path := by
    rw [statusChanges, List.map_append]
    exact hkept.path.append htold.path
  statuses := by
    rw [statusChanges, List.map_append, htold.statuses, hkept.statuses, hkept.named]
  credit := hstage

/-- A state with the same row, credits and events. -/
theorem RecordsKept.same (hkept : RecordsKept id s h) (hsame : SameCredits s s')
    (hpayment : s'.payment = s.payment) (hevents : s'.auditEvents = s.auditEvents) :
    RecordsKept id s' h where
  named := hpayment ▸ hkept.named
  path := hpayment ▸ hkept.path
  statuses := hevents ▸ hkept.statuses
  credit := by
    cases hkept.credit with
    | uncredited hcredits hnone htold hall =>
      exact .uncredited (hsame.credits.trans hcredits) (hsame.events.trans hnone) htold hall
    | waiting i credit hcredits hnone hnext htold hall =>
      exact .waiting i credit (hsame.credits.trans hcredits) (hsame.events.trans hnone) hnext htold
        hall
    | recorded credit hcredits hone htold hall =>
      exact .recorded credit (hsame.credits.trans hcredits) (hsame.events.trans hone) htold hall
    | lost credit hcredits hnone htold hlost =>
      exact .lost credit (hsame.credits.trans hcredits) (hsame.events.trans hnone) htold hlost

/-- A credit says nothing of the status. -/
theorem statusTold_credit {credit : LedgerCredit} {ch : Choice} {r : Except Err Unit}
    (he : (Stmt.createLedgerCredit credit).exec ch s = some (r, s')) :
    StatusTold s ⟨.createLedgerCredit credit, r⟩ s' := by
  unfold Stmt.exec at he
  split at he
  · cases he
    exact statusTold_of_same rfl rfl rfl rfl
  · simp only [Stmt.perform] at he
    split at he <;> cases he <;> exact statusTold_of_same rfl rfl rfl rfl

/-- Nor does its event. -/
theorem statusTold_event {credit : LedgerCredit} {ch : Choice} {r : Except Err Unit}
    (he : (Stmt.audit (creditRecord id credit)).exec ch s = some (r, s')) :
    StatusTold s ⟨.audit (creditRecord id credit), r⟩ s' := by
  unfold Stmt.exec at he
  split at he
  · cases he
    exact statusTold_of_same rfl rfl rfl rfl
  · cases he
    exact statusTold_of_same rfl rfl rfl (filter_concat_false rfl)

/-- A mundane statement loses no event of a credit. -/
theorem failsToTell_mundane (ho : Mundane o) : failsToTell ⟨i, o, r⟩ = false := by
  cases o with
  | audit record =>
    cases r with
    | error e => exact (Bool.or_eq_false_iff.mp ho).2
    | ok a => rfl
  | _ => cases r <;> rfl

/-- **Step.** A statement that keeps to the law keeps the records and their events together. -/
theorem RecordsKept.performed {ch : Choice} (hkept : RecordsKept id s h)
    (hallows : (crediting id).Allows (trail i h) ⟨o, r⟩) (he : o.exec ch s = some (r, s')) :
    RecordsKept id s' (⟨i, o, r⟩ :: h) := by
  cases hpast : untold (trail i h) with
  | some credit =>
    simp only [crediting, hpast] at hallows
    subst hallows
    exact hkept.step (statusTold_event he) (hkept.credit.event hpast he)
  | none =>
    simp only [crediting, hpast] at hallows
    rcases hallows with hmundane | ⟨credit, rfl⟩
    · obtain ⟨htold, hsame⟩ := told_of_exec hmundane he
      exact hkept.step htold (hkept.credit.frame hsame hpast (told_of_mundane hmundane)
        (failsToTell_mundane hmundane))
    · exact hkept.step (statusTold_credit he) (hkept.credit.credit hpast he)

end SettlementOS.Analysis
