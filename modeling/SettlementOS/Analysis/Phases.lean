import SettlementOS.Analysis.Treasury

/-!
# How far an operation has come

A parking takes for its own what the treasury has more of after its subscription, and a recall
redeems what the row it has read says. How far an operation has come with the shares it moves is its
phase, read off its trail, and every operation goes from phase to phase: a parking records what it
has measured, and a recall redeems and marks what it has found.
-/

set_option autoImplicit false

namespace SettlementOS.Analysis

open SettlementOS.Computation Service Model.Treasury Program.Treasury
open Law (keeps_bind keeps_mono keeps_ofExcept keeps_of_uses)
open Model (AssetSymbol Detail Err Hash)

variable {env : Env} {past : List (Event treasuryEffects)}

/-! ## Phases -/

/-- How far an operation has come with the shares it moves. -/
inductive Phase where
  /-- it has none in hand -/
  | idle
  /-- a parking has read what the treasury has -/
  | measuring (before : ℕ)
  /-- it has subscribed since -/
  | subscribed (before : ℕ)
  /-- it has read again, and takes these shares for its own -/
  | bought (shares : ℤ)
  /-- a recall has found the position active -/
  | found (position : Position)
  /-- it has redeemed the position's shares -/
  | redeemed (position : Position)
  deriving DecidableEq

namespace Phase

/-- The phase after one more statement. -/
def next (phase : Phase) : Event treasuryEffects → Phase
  | ⟨.sharesOf, .ok n⟩ =>
    match phase with
    | .subscribed before => .bought (n - before)
    | _ => .measuring n
  | ⟨.subscribe _, .ok _⟩ =>
    match phase with
    | .measuring before => .subscribed before
    | _ => phase
  | ⟨.findPosition _, .ok (some position)⟩ =>
    if position.status = .active then .found position else .idle
  | ⟨.redeem _, .ok _⟩ =>
    match phase with
    | .found position => .redeemed position
    | _ => phase
  | ⟨.recordPark .., .ok _⟩ => .idle
  | ⟨.recordRecall .., .ok _⟩ => .idle
  | _ => phase

/-- Whether a parking is between its two reads. -/
def measures : Phase → Bool
  | .measuring _ => true
  | .subscribed _ => true
  | _ => false

/-- The position a recall has found active and not marked yet. -/
def taken : Phase → Option Position
  | .found position => some position
  | .redeemed position => some position
  | _ => none

/-- What the rows lack of what the treasury has, for what an operation in the phase has moved and
not written. -/
def unwritten (held : ℤ) : Phase → ℤ
  | .subscribed before => held - before
  | .bought shares => shares
  | .redeemed position => -position.shares
  | _ => 0

/-- Nothing has been moved that is not written. -/
def Rests : Phase → Prop
  | .idle => True
  | .measuring _ => True
  | .found _ => True
  | _ => False

/-- An operation that has nothing in hand rests. -/
theorem rests_of_idle {phase : Phase} (h : phase = .idle) : phase.Rests := by
  rw [h]
  trivial

/-- An operation that rests has left nothing unwritten. -/
theorem Rests.unwritten {phase : Phase} (h : phase.Rests) (held : ℤ) :
    phase.unwritten held = 0 := by
  cases phase with
  | idle => rfl
  | measuring before => rfl
  | found position => rfl
  | subscribed before => cases h
  | bought shares => cases h
  | redeemed position => cases h

/-- Only a parking between its reads looks at what the treasury has. -/
theorem unwritten_of_not_measures {phase : Phase} (h : phase.measures = false) (held held' : ℤ) :
    phase.unwritten held = phase.unwritten held' := by
  cases phase with
  | subscribed before => cases h
  | _ => rfl

/-- What may be performed in a phase. -/
def Allows (phase : Phase) : Stmt → Prop
  | .sharesOf => phase = .idle ∨ ∃ before, phase = .subscribed before
  | .subscribe _ => ∃ before, phase = .measuring before
  | .recordPark row _ => phase = .bought row.shares
  | .findPosition _ => phase = .idle
  | .redeem shares => ∃ position, phase = .found position ∧ position.shares = shares
  | .recordRecall id _ _ => ∃ position, phase = .redeemed position ∧ position.id = id
  | _ => True

end Phase

/-- The phase after a trail. -/
def phaseOf : List (Event treasuryEffects) → Phase
  | [] => .idle
  | e :: past => (phaseOf past).next e

/-- Every operation goes from phase to phase, its statements being answered. -/
def sharesLaw : Law treasuryEffects where
  Answers := fun _ r => ∃ a, r = .ok a
  Allows := fun past e => (phaseOf past).Allows e.stmt

/-- A statement that is no part of a phase. -/
def Neutral : Stmt → Prop
  | .sharesOf => False
  | .subscribe _ => False
  | .recordPark .. => False
  | .findPosition _ => False
  | .redeem _ => False
  | .recordRecall .. => False
  | _ => True

/-- A neutral statement leaves the phase as it is. -/
theorem next_neutral {phase : Phase} {o : Stmt} {r : Except Err o.Result} (h : Neutral o) :
    phase.next ⟨o, r⟩ = phase := by
  cases o with
  | sharesOf => cases h
  | subscribe amount => cases h
  | recordPark row detail => cases h
  | findPosition id => cases h
  | redeem shares => cases h
  | recordRecall id hash detail => cases h
  | _ => rfl

/-- A neutral statement is allowed in every phase. -/
theorem allows_neutral {phase : Phase} {o : Stmt} (h : Neutral o) : phase.Allows o := by
  cases o with
  | sharesOf => cases h
  | subscribe amount => cases h
  | recordPark row detail => cases h
  | findPosition id => cases h
  | redeem shares => cases h
  | recordRecall id hash detail => cases h
  | _ => trivial

/-! ## The operations go from phase to phase -/

section

variable {α : Type} {phase : Phase}

/-- A statement is answered, so what comes next is all there is to show. -/
theorem keeps_answered {Q : α → List (Event treasuryEffects) → Prop}
    {X : Err → List (Event treasuryEffects) → Prop} {o : Stmt} {f : o.Result → Operation α}
    (ho : (phaseOf past).Allows o)
    (hf : ∀ a, sharesLaw.Keeps Q X (f a) (⟨o, .ok a⟩ :: past)) :
    sharesLaw.Keeps Q X ((call o).bind f) past := by
  rintro _ ⟨a, rfl⟩
  exact ⟨ho, hf a⟩

/-- What performs only neutral statements stays in its phase. -/
theorem keeps_neutral {p : Operation α} (hp : p.Uses Neutral) (h : phaseOf past = phase) :
    sharesLaw.Keeps (fun _ past => phaseOf past = phase) (fun _ past => phaseOf past = phase) p
      past := by
  refine keeps_of_uses (fun past o r ho hphase _ => ⟨allows_neutral ho, ?_⟩) hp h
  exact (next_neutral ho).trans hphase

/-- The same in front of what comes next. -/
theorem keeps_neutral_bind {β : Type} {Q : β → List (Event treasuryEffects) → Prop}
    {p : Operation α} {f : α → Operation β} (hp : p.Uses Neutral) (h : phaseOf past = phase)
    (hrests : phase.Rests)
    (hf : ∀ a past, phaseOf past = phase →
      sharesLaw.Keeps Q (fun _ past => (phaseOf past).Rests) (f a) past) :
    sharesLaw.Keeps Q (fun _ past => (phaseOf past).Rests) (p.bind f) past := by
  refine keeps_bind (keeps_mono (keeps_neutral hp h) hf fun _ past hpast => ?_)
  rw [hpast]
  exact hrests

/-- A write on the fund, where there is one. -/
theorem keeps_written {Q : α → List (Event treasuryEffects) → Prop} {o : Stmt}
    {f : o.Result → Operation α} (hrests : (phaseOf past).Rests) (ho : (phaseOf past).Allows o)
    (hf : ∀ a, sharesLaw.Keeps Q (fun _ past => (phaseOf past).Rests) (f a)
      (⟨o, .ok a⟩ :: past)) :
    sharesLaw.Keeps Q (fun _ past => (phaseOf past).Rests)
      ((mmfOperatorWrite env (call o)).bind f) past := by
  unfold mmfOperatorWrite
  split
  · exact hrests
  · exact keeps_answered ho hf

end

/-- What an operation is in when it returns, and may be in when it throws. -/
abbrev Settles {α : Type} (p : Operation α) (past : List (Event treasuryEffects)) : Prop :=
  sharesLaw.Keeps (fun _ past => phaseOf past = .idle) (fun _ past => (phaseOf past).Rests) p past

/-- A subscription settles its phase, whatever it is answered. -/
theorem settles_subscribeFor (asset : FundAsset) (args : ParkArgs) (assetAmount : ℕ)
    (h : phaseOf past = .idle) : Settles (subscribeFor env asset args assetAmount) past := by
  refine keeps_neutral_bind (performs_call trivial) h trivial fun indexAtEntry past h => ?_
  refine keeps_answered (.inl h) fun sharesBefore => ?_
  have hmeasuring : phaseOf (⟨.sharesOf, .ok sharesBefore⟩ :: past) = .measuring sharesBefore := by
    rw [phaseOf, h]
    rfl
  refine keeps_written (hmeasuring ▸ trivial) ⟨_, hmeasuring⟩ fun hash => ?_
  have hsubscribed : phaseOf (⟨.subscribe assetAmount, .ok hash⟩ ::
      ⟨.sharesOf, .ok sharesBefore⟩ :: past) = .subscribed sharesBefore := by
    rw [phaseOf, hmeasuring]
    rfl
  refine keeps_answered (.inr ⟨_, hsubscribed⟩) fun sharesAfter => ?_
  refine keeps_answered ?_ fun id => rfl
  rw [phaseOf, hsubscribed]
  rfl

/-- So does a parking. -/
theorem settles_park (args : ParkArgs) (h : phaseOf past = .idle) :
    Settles (park env args) past := by
  refine keeps_neutral_bind (performs_assertMayPark args fun _ => trivial) h trivial
    fun _ past h => ?_
  refine keeps_neutral_bind (performs_fundAssetFor _ trivial) h trivial fun asset past h => ?_
  refine keeps_neutral_bind (performs_lift _) h trivial fun assetAmount past h => ?_
  refine keeps_neutral_bind (performs_freeTreasuryBalance _ (fun _ => trivial) trivial) h trivial
    fun balance past h => ?_
  dsimp only
  split
  · exact Phase.rests_of_idle h
  · refine keeps_neutral_bind (performs_ensureTreasuryAllowance _ _ trivial trivial) h trivial
      fun _ past h => ?_
    exact settles_subscribeFor asset args assetAmount h

/-- A redemption settles the position that was found. -/
theorem settles_redeemFor (asset : FundAsset) {position : Position}
    (h : phaseOf past = .found position) : Settles (redeemFor env asset position) past := by
  refine keeps_neutral_bind (performs_call trivial) h trivial fun indexAtExit past h => ?_
  refine keeps_neutral_bind (performs_call trivial) h trivial fun balanceBefore past h => ?_
  refine keeps_written (h ▸ trivial) ⟨_, h, rfl⟩ fun hash => ?_
  have hredeemed : phaseOf (⟨.redeem position.shares, .ok hash⟩ :: past) = .redeemed position := by
    rw [phaseOf, h]
    rfl
  refine keeps_answered trivial fun balanceAfter => ?_
  exact keeps_answered ⟨position, hredeemed, rfl⟩ fun _ => rfl

/-- So does a recall of one position. -/
theorem settles_recallPosition (positionId : ℕ) (h : phaseOf past = .idle) :
    Settles (recallPosition env positionId) past := by
  refine keeps_answered h fun position => ?_
  cases position with
  | none =>
    have hidle : phaseOf (⟨.findPosition positionId, .ok none⟩ :: past) = .idle := h
    exact Phase.rests_of_idle hidle
  | some position =>
    have hfound : phaseOf (⟨.findPosition positionId, .ok (some position)⟩ :: past) =
        if position.status = .active then .found position else .idle := rfl
    dsimp only
    split
    next hnot =>
      rw [if_neg hnot] at hfound
      exact Phase.rests_of_idle hfound
    next hactive =>
      rw [if_pos (not_not.mp hactive)] at hfound
      refine keeps_neutral_bind (performs_fundAssetFor _ trivial) hfound trivial
        fun asset past h => ?_
      exact settles_redeemFor asset h

/-- So does a recall of one position after another. -/
theorem settles_recallUntil (shortfall : ℤ) (positions : List Position)
    (recalled : List RecallResult) (freed : ℤ) (h : phaseOf past = .idle) :
    Settles (recallUntil env shortfall positions recalled freed) past := by
  induction positions generalizing recalled freed past with
  | nil => exact h
  | cons position positions ih =>
    unfold recallUntil
    split
    · exact h
    · exact keeps_bind (keeps_mono (settles_recallPosition position.id h)
        (fun result past h => ih _ _ h) fun _ _ hrests => hrests)

/-- So does a recall for a shortfall. -/
theorem settles_recallShortfall (asset : FundAsset) (args : RecallForPaymentArgs)
    (needed free : ℕ) (h : phaseOf past = .idle) :
    Settles (recallShortfall env asset args needed free) past := by
  refine keeps_neutral_bind (performs_parkedBalance _ trivial trivial) h trivial
    fun parked past h => ?_
  dsimp only
  split
  · exact Phase.rests_of_idle h
  · refine keeps_neutral_bind (performs_call trivial) h trivial fun positions past h => ?_
    refine keeps_bind (keeps_mono (settles_recallUntil _ positions [] 0 h) (fun result past h => ?_)
      fun _ _ hrests => hrests)
    split
    · exact Phase.rests_of_idle h
    · exact keeps_neutral_bind (performs_call trivial) h trivial fun _ _ h => h

/-- So does a recall for a payment. -/
theorem settles_recallForPayment (args : RecallForPaymentArgs) (h : phaseOf past = .idle) :
    Settles (recallForPayment env args) past := by
  refine keeps_neutral_bind (performs_fundAssetFor _ trivial) h trivial fun asset past h => ?_
  refine keeps_neutral_bind (performs_lift _) h trivial fun needed past h => ?_
  refine keeps_neutral_bind (performs_freeTreasuryBalance _ (fun _ => trivial) trivial) h trivial
    fun balance past h => ?_
  split
  · exact h
  · exact settles_recallShortfall asset args _ _ h

/-- An accrual has nothing in hand. -/
theorem settles_accrueDaily (annualRateBps : ℤ) (h : phaseOf past = .idle) :
    Settles (accrueDaily env annualRateBps) past := by
  refine keeps_neutral_bind (performs_lift _) h trivial fun fund past h => ?_
  refine keeps_neutral_bind (performs_currentIndexOf trivial) h trivial fun oldIndex past h => ?_
  refine keeps_neutral_bind (performs_lift _) h trivial fun newIndex past h => ?_
  refine keeps_neutral_bind (performs_mmfOperatorWrite trivial) h trivial fun hash past h => ?_
  exact keeps_neutral_bind (performs_call trivial) h trivial fun _ _ h => h

/-- Every operation settles. -/
theorem settles_serve (request : Request) : Settles (serve env request) [] := by
  have hreturn : ∀ {α : Type} {p : Operation α} {f : α → Response}, Settles p [] →
      Settles (p.bind fun a => .ret (f a)) [] := fun h =>
    keeps_bind (keeps_mono h (fun _ _ h => h) fun _ _ h => h)
  cases request with
  | park args => exact hreturn (settles_park args rfl)
  | recallPosition positionId => exact hreturn (settles_recallPosition positionId rfl)
  | recallForPayment args => exact hreturn (settles_recallForPayment args rfl)
  | accrueDaily annualRateBps => exact hreturn (settles_accrueDaily annualRateBps rfl)

end SettlementOS.Analysis
