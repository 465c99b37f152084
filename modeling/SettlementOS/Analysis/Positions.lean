import SettlementOS.Analysis.Treasury
import SettlementOS.Computation.Journal

/-!
# Positions and the events about them

A position is created, and marked as recalled, in a transaction that writes its event. Nothing else
writes such an event, and nothing else writes a position: so whatever is carried out, and whatever
its caller is told, the positions and the events are those of the same changes.
-/

set_option autoImplicit false

namespace SettlementOS.Analysis

open SettlementOS.Computation Service Model.Treasury Program.Treasury
open Model (AuditRecord Detail Err Hash)

/-! ## Changes -/

/-- A change of the positions that is committed. -/
inductive PositionChange where
  | parked (id : ℕ) (row : NewPosition) (detail : Detail)
  | recalled (id : ℕ) (txHash : Hash) (detail : Detail)

namespace PositionChange

/-- The position it is about. -/
def position : PositionChange → ℕ
  | .parked id _ _ => id
  | .recalled id _ _ => id

/-- What it makes of the rows. -/
def apply (positions : List Position) : PositionChange → List Position
  | .parked id row _ => positions ++ [{ row with id := id }]
  | .recalled id txHash _ => positions.map fun p =>
    if p.id = id then { p with status := .recalled, txHashRecall := some txHash } else p

/-- Its event. -/
def record : PositionChange → AuditRecord
  | .parked id _ detail =>
    ⟨"TREASURY_PARKED", "system", none, ("positionId", .str (toString id)) :: detail⟩
  | .recalled _ _ detail => ⟨"TREASURY_RECALLED", "system", none, detail⟩

end PositionChange

/-- An event about the creation or the recall of a position. -/
def recordsPosition (r : AuditRecord) : Bool :=
  r.action == "TREASURY_PARKED" || r.action == "TREASURY_RECALLED"

/-- Whether a statement is carried out. -/
def carriedOut : Choice → Bool
  | .failed _ => false
  | _ => true

/-- The changes a statement commits. -/
def positionChanges (o : Stmt) (ch : Choice) (s : State) : List PositionChange :=
  match o with
  | .recordPark row detail =>
    if carriedOut ch then [.parked s.positions.length row detail] else []
  | .recordRecall id txHash detail =>
    if carriedOut ch && s.positions.any (·.id = id) then [.recalled id txHash detail] else []
  | _ => []

/-- The events about a position are those of its changes, and name it. -/
def Announces : Stmt → Prop
  | .audit r => recordsPosition r = false
  | .recordRecall id _ detail => detail.head? = some ("positionId", .str (toString id))
  | _ => True

/-- What lies between two states: these changes, each with its event. -/
structure PositionsRecorded (s : State) (changes : List PositionChange) (s' : State) : Prop where
  rows : s'.positions = changes.foldl PositionChange.apply s.positions
  events : s'.events.filter recordsPosition =
    s.events.filter recordsPosition ++ changes.map PositionChange.record
  named : ∀ change ∈ changes,
    change.record.detail.head? = some ("positionId", .str (toString change.position))

variable {env : Env} {s s' s'' : State}

/-- The same rows and events record no change. -/
theorem recorded_of_same (hp : s'.positions = s.positions)
    (he : s'.events.filter recordsPosition = s.events.filter recordsPosition) :
    PositionsRecorded s [] s' where
  rows := hp
  events := by rw [he, List.map_nil, List.append_nil]
  named := by simp

/-- Changes one after the other are recorded one after the other. -/
theorem PositionsRecorded.trans {l l' : List PositionChange} (h : PositionsRecorded s l s')
    (h' : PositionsRecorded s' l' s'') : PositionsRecorded s (l ++ l') s'' where
  rows := by rw [h'.rows, h.rows, List.foldl_append]
  events := by rw [h'.events, h.events, List.map_append, List.append_assoc]
  named := by
    intro change hchange
    rcases List.mem_append.mp hchange with hin | hin
    · exact h.named change hin
    · exact h'.named change hin

/-! ## Statements -/

/-- A state with the same positions and events. -/
def SameRows (s s' : State) : Prop := s'.positions = s.positions ∧ s'.events = s.events

/-- The same rows and events record no change. -/
theorem SameRows.recorded (h : SameRows s s') : PositionsRecorded s [] s' :=
  recorded_of_same h.1 (by rw [h.2])

/-- A transaction writes no row. -/
theorem sameRows_transactWith (n : ℤ)
    (f : Uint256 → Except Revert (Contracts.Fund.World × List Contracts.Fund.Log)) :
    SameRows s (s.transactWith n f).2 := by
  unfold State.transactWith
  split
  · exact ⟨rfl, rfl⟩
  · unfold State.transact
    split <;> exact ⟨rfl, rfl⟩

/-- An approval writes no row. -/
theorem sameRows_approve (token : Contracts.Address) (amount : ℕ) :
    SameRows s (perform env (.approve token amount) s).2 := by
  simp only [perform]
  split
  · exact ⟨rfl, rfl⟩
  · unfold State.approve
    dsimp only
    split <;> exact ⟨rfl, rfl⟩

/-- What a statement that is carried out changes. -/
theorem recorded_perform {o : Stmt} (ho : Announces o) :
    PositionsRecorded s (positionChanges o .done s) (perform env o s).2 := by
  cases o with
  | recordPark row detail =>
    have hevents : (perform env (.recordPark row detail) s).2.events =
        s.events ++ [(PositionChange.parked s.positions.length row detail).record] := rfl
    refine ⟨rfl, ?_, ?_⟩
    · rw [hevents, List.filter_append]
      rfl
    · intro change hchange
      rw [List.mem_singleton.mp hchange]
      rfl
  | recordRecall id txHash detail =>
    by_cases hany : s.positions.any (·.id = id) = true
    · have hchanges : positionChanges (.recordRecall id txHash detail) .done s =
          [.recalled id txHash detail] := by
        simp only [positionChanges, carriedOut, hany, Bool.and_self, if_true]
      rw [hchanges]
      simp only [perform, hany, if_true]
      refine ⟨rfl, ?_, ?_⟩
      · dsimp only
        rw [List.filter_append]
        rfl
      · intro change hchange
        rw [List.mem_singleton.mp hchange]
        exact ho
    · have hchanges : positionChanges (.recordRecall id txHash detail) .done s = [] := by
        simp only [positionChanges, hany, Bool.and_false, Bool.false_eq_true, if_false]
      rw [hchanges]
      simp only [perform, hany, Bool.false_eq_true, if_false]
      exact SameRows.recorded ⟨rfl, rfl⟩
  | audit record =>
    refine recorded_of_same rfl ?_
    have hevents : (perform env (.audit record) s).2.events = s.events ++ [record] := rfl
    have hother : recordsPosition record = false := ho
    rw [hevents, List.filter_append, List.filter_cons_of_neg (by simp [hother]), List.filter_nil,
      List.append_nil]
  | approve token amount => exact (sameRows_approve token amount).recorded
  | subscribe amount => exact (sameRows_transactWith _ _).recorded
  | redeem shares => exact (sameRows_transactWith _ _).recorded
  | accrue newIndex => exact (sameRows_transactWith _ _).recorded
  | _ => exact SameRows.recorded ⟨rfl, rfl⟩

/-- What a statement changes, however it goes. -/
theorem recorded_exec {o : Stmt} {ch : Choice} {a : Except Err o.Result} (ho : Announces o)
    (h : exec env o ch s = (a, s')) : PositionsRecorded s (positionChanges o ch s) s' := by
  have hs : s' = (exec env o ch s).2 := by rw [h]
  subst hs
  cases ch with
  | done => exact recorded_perform ho
  | failed e =>
    have hchanges : positionChanges o (.failed e) s = [] := by cases o <;> rfl
    rw [hchanges]
    exact SameRows.recorded ⟨rfl, rfl⟩
  | unconfirmed e =>
    have hchanges : positionChanges o (.unconfirmed e) s = positionChanges o .done s := by
      cases o <;> rfl
    rw [hchanges]
    exact recorded_perform ho

/-- A move of the outside leaves the rows and the events alone. -/
theorem sameRows_interfere {x : Other} (h : interfere env x s = some s') : SameRows s s' := by
  cases x with
  | reservations rows =>
    cases h
    exact ⟨rfl, rfl⟩
  | entities rows =>
    cases h
    exact ⟨rfl, rfl⟩
  | asset msgSender request =>
    simp only [interfere] at h
    split at h
    · cases h
    · split at h
      · cases h
      · cases h
        exact ⟨rfl, rfl⟩

/-! ## Operations -/

/-- A subscription announces what it records. -/
theorem announces_subscribeFor (asset : FundAsset) (args : ParkArgs) (assetAmount : ℕ) :
    (subscribeFor env asset args assetAmount).Uses Announces := by
  apply Prog.Uses.bind (performs_call trivial)
  intro indexAtEntry
  apply Prog.Uses.bind (performs_call trivial)
  intro sharesBefore
  apply Prog.Uses.bind (performs_mmfOperatorWrite trivial)
  intro hash
  apply Prog.Uses.bind (performs_call trivial)
  intro sharesAfter
  exact Prog.Uses.bind (performs_call trivial) fun _ => trivial

/-- So does a parking. -/
theorem announces_park (args : ParkArgs) : (park env args).Uses Announces := by
  apply Prog.Uses.bind (performs_assertMayPark _ fun _ => trivial)
  intro _
  apply Prog.Uses.bind (performs_fundAssetFor _ trivial)
  intro asset
  apply Prog.Uses.bind (performs_lift _)
  intro assetAmount
  apply Prog.Uses.bind (performs_freeTreasuryBalance _ (fun _ => trivial) trivial)
  intro balance
  split
  · trivial
  · apply Prog.Uses.bind (performs_ensureTreasuryAllowance _ _ trivial trivial)
    intro _
    exact announces_subscribeFor _ _ _

/-- So does a recall of one position. -/
theorem announces_recallPosition (positionId : ℕ) :
    (recallPosition env positionId).Uses Announces := by
  apply Prog.Uses.bind (performs_call trivial)
  intro position
  split
  · trivial
  · split
    · trivial
    · apply Prog.Uses.bind (performs_fundAssetFor _ trivial)
      intro asset
      apply Prog.Uses.bind (performs_call trivial)
      intro indexAtExit
      apply Prog.Uses.bind (performs_call trivial)
      intro balanceBefore
      apply Prog.Uses.bind (performs_mmfOperatorWrite trivial)
      intro hash
      apply Prog.Uses.bind (performs_call trivial)
      intro balanceAfter
      exact Prog.Uses.bind (performs_call rfl) fun _ => trivial

/-- So does a recall of one position after another. -/
theorem announces_recallUntil (shortfall : ℤ) (positions : List Position)
    (recalled : List RecallResult) (freed : ℤ) :
    (recallUntil env shortfall positions recalled freed).Uses Announces := by
  induction positions generalizing recalled freed with
  | nil => trivial
  | cons position positions ih =>
    unfold recallUntil
    split
    · trivial
    · exact Prog.Uses.bind (announces_recallPosition _) fun result => ih _ _

/-- So does a recall for a payment. -/
theorem announces_recallForPayment (args : RecallForPaymentArgs) :
    (recallForPayment env args).Uses Announces := by
  apply Prog.Uses.bind (performs_fundAssetFor _ trivial)
  intro asset
  apply Prog.Uses.bind (performs_lift _)
  intro needed
  apply Prog.Uses.bind (performs_freeTreasuryBalance _ (fun _ => trivial) trivial)
  intro balance
  split
  · trivial
  · apply Prog.Uses.bind (performs_parkedBalance _ trivial trivial)
    intro parked
    dsimp only
    split
    · trivial
    · apply Prog.Uses.bind (performs_call trivial)
      intro positions
      apply Prog.Uses.bind (announces_recallUntil _ _ _ _)
      intro result
      split
      · trivial
      · exact Prog.Uses.bind (performs_call rfl) fun _ => trivial

/-- So does an accrual. -/
theorem announces_accrueDaily (annualRateBps : ℤ) :
    (accrueDaily env annualRateBps).Uses Announces := by
  apply Prog.Uses.bind (performs_lift _)
  intro fund
  apply Prog.Uses.bind (performs_currentIndexOf trivial)
  intro oldIndex
  apply Prog.Uses.bind (performs_lift _)
  intro newIndex
  apply Prog.Uses.bind (performs_mmfOperatorWrite trivial)
  intro hash
  exact Prog.Uses.bind (performs_call rfl) fun _ => trivial

/-- So does whatever serves a request. -/
theorem announces_serve (request : Request) : (serve env request).Uses Announces := by
  cases request with
  | park args => exact Prog.Uses.bind (announces_park _) fun _ => trivial
  | recallPosition id => exact Prog.Uses.bind (announces_recallPosition _) fun _ => trivial
  | recallForPayment args => exact Prog.Uses.bind (announces_recallForPayment _) fun _ => trivial
  | accrueDaily rate => exact Prog.Uses.bind (announces_accrueDaily _) fun _ => trivial

/-! ## Runs -/

/-- What a run of the treasury has changed of the positions. -/
def changesOfRun (env : Env) (s : State) (ms : List (service env).Move) : List PositionChange :=
  (Config.start (S := service env) s).journal positionChanges ms

/-- What is said of statements and of the outside is said of runs. -/
theorem journals_positions :
    Journals (S := service env) Announces positionChanges PositionsRecorded where
  refl _ := SameRows.recorded ⟨rfl, rfl⟩
  trans := PositionsRecorded.trans
  exec ho he := recorded_exec ho (Option.some.inj he)
  outside hx := (sameRows_interfere hx).recorded

end SettlementOS.Analysis
