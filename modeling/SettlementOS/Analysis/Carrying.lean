import SettlementOS.Analysis.Broadcasts
import SettlementOS.Analysis.Requests
import SettlementOS.Computation.Endings

/-!
# Where the hash of a transfer ends up

An attempt that is inside its leased section, followed from the broadcast of a transfer to its
end. Until the first broadcast, and whenever every transfer is closed, it is `Calm`. A payout
whose write failed leaves it `Unwritten`, a compensation `Unheld`, and one whose hash is on the
row `Held`. However it ends it has left each of its transfers resolved, provided no database
statement failed later on.
-/

set_option autoImplicit false

namespace SettlementOS.Analysis

open SettlementOS.Computation Service Discipline Model Program

variable {env : Env} {i : ℕ} {w w' : World env} {α : Type}

/-! ## Statements -/

/-- Performing one statement. -/
theorem finishes_call {o : Stmt} {P : World env → Prop} {Q : o.Result → World env → Prop}
    {X : Err → World env → Prop} (hs : (sagaDiscipline env).Survives i P) (hw : P w)
    (hok : ∀ w c a s, Inv w → P w → o.exec c w.state = some (.ok a, s) →
      Inv (⟨s, ⟨i, o, .ok a⟩ :: w.history⟩ : World env) → Q a ⟨s, ⟨i, o, .ok a⟩ :: w.history⟩)
    (herr : ∀ w c e s, Inv w → P w → o.exec c w.state = some (.error e, s) →
      X e ⟨s, ⟨i, o, .error e⟩ :: w.history⟩) :
    (sagaDiscipline env).Finishes i Q X (call o) w := by
  refine finishes_perform (R := fun (r : Except Err o.Result) w => match r with
    | .ok a => Q a w
    | .error e => X e w) hs ?_ hw fun r w hr => ?_
  · intro w c r w' hinv hP he hinv'
    obtain ⟨s, hs, rfl⟩ := World.exec_eq_some.mp he
    cases r with
    | ok a => exact hok w c a s hinv hP hs hinv'
    | error e => exact herr w c e s hinv hP hs
  · cases r <;> exact hr

/-- What the others leave as it is meanwhile. -/
theorem frame_of_meanwhile (h : (sagaDiscipline env).Meanwhile i w w')
    (hi : inside i w.history = true) (hst : w.state.payment.status ≠ .approved) : Frame i w w' :=
  h.rely.frame hi hst

/-- The trail, with the statement just performed on it. -/
theorem trail_cons {o : Stmt} {r : Except Err o.Result} {h : History} :
    trail i (⟨i, o, r⟩ :: h) = ⟨o, r⟩ :: trail i h := if_pos rfl

/-- Only a release takes an attempt outside. -/
theorem inside_of_not_release {o : Stmt} {r : Except Err o.Result} {h : History}
    (ho : deedOf o ≠ some .release) (hi : inside i h = true) :
    inside i (⟨i, o, r⟩ :: h) = true := by
  have hgave : gaveBack ⟨i, o, r⟩ = false := by
    cases o with
    | releaseLease leaseId => exact absurd rfl ho
    | _ => rfl
  unfold inside
  split
  · rfl
  · rw [hgave]
    simpa using hi

/-- Whoever sends no treasury transfer broadcasts nothing. -/
theorem broadcast_of_deed {o : Stmt} {r : Except Err o.Result}
    (hp : deedOf o ≠ some (.send .payout)) (hc : deedOf o ≠ some (.send .compensation)) :
    broadcast ⟨o, r⟩ = none := by
  cases o with
  | writeContract network call =>
    cases call with
    | transfer leg token recipient amount =>
      cases leg with
      | destinationPayout => exact absurd rfl hp
      | compensation => exact absurd rfl hc
    | _ => cases r <;> rfl
  | _ => rfl

/-- The hash columns after a statement. -/
theorem hashOf_of_exec {o : Stmt} {c : Choice} {s s' : State} {r : Except Err o.Result}
    (h : o.exec c s = some (r, s')) (leg : Leg) :
    hashOf leg s'.payment = (persists leg ⟨o, r⟩ <|> hashOf leg s.payment) := by
  rcases exec_eq_some h with ⟨⟨m, rfl⟩, rfl⟩ | h
  · cases o <;> rfl
  · cases o with
    | transition status next opts =>
      simp only [Stmt.perform, State.transition] at h
      split at h <;> cases h
      · cases leg
        · exact apply_destinationTxHash s.payment next opts
        · exact apply_compensationTxHash s.payment next opts
      · rfl
    | _ =>
      simp only [Stmt.perform, State.reserve] at h
      (repeat' split at h) <;> cases h <;> cases leg <;> rfl

/-! ## Calm -/

/-- Nothing is left open of what the attempt has broadcast, provided no database statement has
failed later on. -/
def Tidy (i : ℕ) (w : World env) : Prop :=
  LaterSucceed (trail i w.history) → Sealed (trail i w.history)

/-- A tidy attempt stays so, whatever the others do. -/
theorem tidy_survives : (sagaDiscipline env).Survives i (Tidy i) := by
  intro w w' h hm
  unfold Tidy
  rw [hm.trail]
  exact h

/-- A statement that broadcasts nothing. -/
theorem Tidy.cons {o : Stmt} {r : Except Err o.Result} {s : State} (h : Tidy i w)
    (hb : broadcast ⟨o, r⟩ = none) : Tidy i (⟨s, ⟨i, o, r⟩ :: w.history⟩ : World env) := by
  unfold Tidy
  rw [trail_cons]
  exact fun hlater => (h hlater.tail).cons hb

/-- A deed that broadcasts nothing. -/
def silentDeed : Deed → Bool
  | .send k => k ≠ .payout && k ≠ .compensation
  | _ => true

/-- Silent deeds broadcast nothing. -/
theorem broadcast_of_within {ds : List Deed} {o : Stmt} (ho : Within ds o)
    (hds : ∀ d ∈ ds, silentDeed d = true) (r : Except Err o.Result) :
    broadcast ⟨o, r⟩ = none := by
  have hdeed : ∀ d, deedOf o = some d → silentDeed d = true := fun d hd => hds d (ho d hd)
  apply broadcast_of_deed <;> exact fun h => absurd (hdeed _ h) (by decide)

/-- A program that broadcasts nothing leaves nothing open. -/
theorem finishes_tidy {ε : Type} {D : List Deed} {q : Prog sagaEffects ε α}
    (hq : q.Uses (Within D)) (hds : ∀ d ∈ D, silentDeed d = true) (hw : Tidy i w) :
    (sagaDiscipline env).Finishes i (fun _ => Tidy i) (fun _ => Tidy i) q w := by
  apply finishes_of_uses tidy_survives _ hq hw
  intro o ho w c r w' _ hP he _
  obtain ⟨s, -, rfl⟩ := World.exec_eq_some.mp he
  exact hP.cons (broadcast_of_within ho hds r)

/-- The attempt is inside, and nothing is left open. -/
structure Calm (i : ℕ) (w : World env) : Prop where
  tidy : Tidy i w
  inside : inside i w.history = true

/-- A calm attempt stays so, whatever the others do. -/
theorem calm_survives : (sagaDiscipline env).Survives i (Calm i) :=
  fun w w' h hm => ⟨tidy_survives w w' h.tidy hm, hm.rely.inside.trans h.inside⟩

/-- A deed of an attempt that stays calm. -/
def calmDeed : Deed → Bool
  | .release => false
  | d => silentDeed d

/-- A statement that neither gives the lease back nor broadcasts leaves its attempt calm. -/
theorem Calm.cons {o : Stmt} {r : Except Err o.Result} {s : State} (h : Calm i w)
    (ho : deedOf o ≠ some .release) (hb : broadcast ⟨o, r⟩ = none) :
    Calm i (⟨s, ⟨i, o, r⟩ :: w.history⟩ : World env) :=
  ⟨h.tidy.cons hb, inside_of_not_release ho h.inside⟩

/-- A program with calm deeds stays calm. -/
theorem finishes_calm {ε : Type} {D : List Deed} {q : Prog sagaEffects ε α}
    (hq : q.Uses (Within D)) (hds : ∀ d ∈ D, calmDeed d = true) (hw : Calm i w) :
    (sagaDiscipline env).Finishes i (fun _ => Calm i) (fun _ => Calm i) q w := by
  apply finishes_of_uses calm_survives _ hq hw
  intro o ho w c r w' _ hP he _
  obtain ⟨s, -, rfl⟩ := World.exec_eq_some.mp he
  have hrelease : deedOf o ≠ some .release := fun h => absurd (hds _ (ho _ h)) (by decide)
  refine hP.cons hrelease (broadcast_of_within ho (fun d hd => ?_) r)
  have hcalm := hds d hd
  cases d <;> first | exact hcalm | rfl

/-! ## Ends -/

/-- Where an attempt's section leaves its transfers when it returns. -/
def Exit (i : ℕ) (w : World env) : Prop :=
  LaterSucceed (trail i w.history) → Sealed (trail i w.history) ∨
    (inside i w.history = true ∧ w.state.payment.status ≠ .approved ∧
      ∀ leg hash since, Since (trail i w.history) leg hash since →
        Resolved leg hash since w.state.payment)

/-- A tidy attempt may return. -/
theorem Tidy.exit (h : Tidy i w) : Exit i w := fun hlater => .inl (h hlater)

/-- Every broadcast has been followed by a statement. -/
def Followed (trail : Trail) : Prop := ∀ leg hash since, Since trail leg hash since → since ≠ []

/-- A database failure after every broadcast was followed is one too many. -/
theorem sealed_of_failure {trail : Trail} {e : Event sagaEffects} (h : Followed trail)
    (he : failsInDb e = true) (hb : broadcast e = none) :
    LaterSucceed (e :: trail) → Sealed (e :: trail) := by
  intro hlater leg hash since hs
  obtain ⟨since', rfl, hs'⟩ := (since_cons_plain hb).mp hs
  refine absurd hlater (not_laterSucceed he hs' fun b hhead => ?_)
  cases trail with
  | nil => cases hhead
  | cons b' past =>
    cases hhead
    rcases hb' : broadcast b with _ | ⟨leg', hash'⟩
    · rfl
    · exact absurd rfl (h leg' hash' [] (since_cons.mpr (.inl ⟨rfl, hb'⟩)))

/-- A database statement that fails does so with a database error. -/
theorem failsInDb_of_exec {o : Stmt} {c : Choice} {s s' : State} {e : Err}
    (hdb : o.isDatabase = true) (h : o.exec c s = some (.error e, s')) :
    failsInDb ⟨o, .error e⟩ = true ∨ o.perform c s = some (.error e, s') := by
  rcases exec_eq_some h with ⟨⟨m, hm⟩, -⟩ | h
  · cases hm
    left
    unfold Stmt.fault
    rw [hdb]
    rfl
  · exact .inr h

/-! ## One transfer left open -/

/-- Every transfer is closed but one of the leg, and `K` holds of what was performed since. -/
def Open (trail : Trail) (leg : Leg) (hash : Hash) (K : Trail → Prop) : Prop :=
  ∀ leg' h since, Since trail leg' h since → Closed leg' h since ∨ (leg' = leg ∧ h = hash ∧ K since)

section Open

variable {trail : Trail} {leg : Leg} {hash : Hash} {K K' : Trail → Prop} {e : Event sagaEffects}

/-- What is open stays open after a statement that broadcasts nothing. -/
theorem Open.cons (h : Open trail leg hash K) (hb : broadcast e = none)
    (hK : ∀ since, K since → K' (e :: since)) : Open (e :: trail) leg hash K' := by
  intro leg' h' since hs
  obtain ⟨since', rfl, hs'⟩ := (since_cons_plain hb).mp hs
  exact (h leg' h' since' hs').imp Closed.cons fun ⟨hl, hh, hk⟩ => ⟨hl, hh, hK _ hk⟩

/-- If the one that is open is closed, all are. -/
theorem Open.sealed (h : Open trail leg hash K) (hK : ∀ since, K since → Closed leg hash since) :
    Sealed trail := by
  intro leg' h' since hs
  rcases h leg' h' since hs with hc | ⟨rfl, rfl, hk⟩
  · exact hc
  · exact hK since hk

/-- If the one that is open has been followed, all have. -/
theorem Open.followed (h : Open trail leg hash K) (hK : ∀ since, K since → since ≠ []) :
    Followed trail := by
  intro leg' h' since hs
  rcases h leg' h' since hs with hc | ⟨-, -, hk⟩
  · exact hc.followed
  · exact hK since hk

/-- A transfer that has just been broadcast is open. -/
theorem Sealed.opened (h : Sealed trail) (hb : broadcast e = some (leg, hash)) :
    Open (e :: trail) leg hash (· = []) := by
  intro leg' h' since hs
  rcases since_cons.mp hs with ⟨rfl, hb'⟩ | ⟨since', rfl, hs'⟩
  · rw [hb, Option.some.injEq, Prod.mk.injEq] at hb'
    exact .inr ⟨hb'.1.symm, hb'.2.symm, rfl⟩
  · exact .inl (h leg' h' since' hs').cons

end Open

/-- The write of the hash failed, and nothing has been read since that could make up for it. -/
structure Missing (hash : Hash) (since : Trail) : Prop where
  followed : since ≠ []
  writeFailed : WriteFailed since
  unread : ¬ ReceiptRead hash since
  unfound : ∀ x ∈ since, foundUnsent x = false

/-- Something has been performed since, and a write that failed can be made up for. -/
structure Certain (leg : Leg) (hash : Hash) (since : Trail) : Prop where
  followed : since ≠ []
  recoverable : Recoverable leg hash since

/-- A hash that is missing stays so while neither a receipt nor the row is read. -/
theorem Missing.cons {hash : Hash} {since : Trail} {e : Event sagaEffects}
    (h : Missing hash since) (hr : receiptOf hash e = none) (hf : foundUnsent e = false) :
    Missing hash (e :: since) where
  followed := List.cons_ne_nil _ _
  writeFailed := (writeFailed_cons h.followed).mpr h.writeFailed
  unread := by
    rintro ⟨x, hx, hx'⟩
    rcases List.mem_cons.mp hx with rfl | hx
    · rw [hr] at hx'
      cases hx'
    · exact h.unread ⟨x, hx, hx'⟩
  unfound := by
    intro x hx
    rcases List.mem_cons.mp hx with rfl | hx
    · exact hf
    · exact h.unfound x hx

/-- What is certain of a transfer stays certain. -/
theorem Certain.cons {leg : Leg} {hash : Hash} {since : Trail} {e : Event sagaEffects}
    (h : Certain leg hash since) : Certain leg hash (e :: since) :=
  ⟨List.cons_ne_nil _ _, h.recoverable.cons h.followed⟩

/-- A receipt that was read makes up for the write. -/
theorem Missing.certain {leg : Leg} {hash : Hash} {since : Trail} {e : Event sagaEffects}
    {b : Bool} (hr : receiptOf hash e = some b) : Certain leg hash (e :: since) :=
  ⟨List.cons_ne_nil _ _, fun _ => .inl ⟨e, List.mem_cons_self, by simp [hr]⟩⟩

/-- A hash that is not on the row and that nothing made up for is lost. -/
theorem Missing.resolved {leg : Leg} {hash : Hash} {since : Trail} {p : Payment}
    (h : Missing hash since) (hp : hashOf leg p ≠ some hash) : Resolved leg hash since p := by
  refine .lost h.followed (fun hc => ?_) fun hr => ?_
  · rcases hc with ⟨x, hx, hx'⟩ | hc
    · exact h.unread ⟨x, hx, by simp [hx']⟩
    · exact hp hc
  · rcases hr h.writeFailed with hread | ⟨-, x, hx, hx'⟩
    · exact h.unread hread
    · rw [h.unfound x hx] at hx'
      cases hx'

/-- The attempt is inside at a status, with one transfer open. -/
structure Standing (i : ℕ) (status : PaymentStatus) (leg : Leg) (hash : Hash)
    (K : Trail → Prop) (w : World env) : Prop where
  inside : inside i w.history = true
  status : w.state.payment.status = status
  standing : LaterSucceed (trail i w.history) → Open (trail i w.history) leg hash K

section Standing

variable {status : PaymentStatus} {leg : Leg} {hash : Hash} {K K' : Trail → Prop}

/-- A transfer that stands open stands so whatever the others do. -/
theorem standing_survives (hst : status ≠ .approved) {F : State → Prop}
    (hF : ∀ s s', s'.payment = s.payment → s'.ledgerCredits = s.ledgerCredits → F s → F s') :
    (sagaDiscipline env).Survives i fun w => Standing i status leg hash K w ∧ F w.state := by
  rintro w w' ⟨h, hf⟩ hm
  have hframe := frame_of_meanwhile hm h.inside (h.status ▸ hst)
  refine ⟨⟨hm.rely.inside.trans h.inside, ?_, ?_⟩, hF _ _ hframe.payment hframe.credits hf⟩
  · rw [hframe.payment, h.status]
  · rw [hm.trail]
    exact h.standing

/-- A statement that broadcasts nothing and moves nothing. -/
theorem Standing.cons {o : Stmt} {r : Except Err o.Result} {s : State}
    (h : Standing i status leg hash K w) (ho : deedOf o ≠ some .release)
    (hb : broadcast ⟨o, r⟩ = none) (hs : s.payment.status = status)
    (hK : ∀ since, K since → K' (⟨o, r⟩ :: since)) :
    Standing i status leg hash K' (⟨s, ⟨i, o, r⟩ :: w.history⟩ : World env) where
  inside := inside_of_not_release ho h.inside
  status := hs
  standing hlater := by
    rw [trail_cons] at hlater ⊢
    exact (h.standing hlater.tail).cons hb hK

/-- A database failure, once the broadcast was followed. -/
theorem Standing.tidy_of_failure {o : Stmt} {r : Except Err o.Result} {s : State}
    (h : Standing i status leg hash K w) (hK : ∀ since, K since → since ≠ [])
    (hb : broadcast ⟨o, r⟩ = none) (hf : failsInDb ⟨o, r⟩ = true) :
    Tidy i (⟨s, ⟨i, o, r⟩ :: w.history⟩ : World env) := by
  unfold Tidy
  rw [trail_cons]
  intro hlater
  exact sealed_of_failure ((h.standing hlater.tail).followed hK) hf hb hlater

/-- A statement that writes neither the row nor a credit. -/
theorem rows_of_exec {o : Stmt} {c : Choice} {s s' : State} {r : Except Err o.Result}
    (h : o.exec c s = some (r, s')) (ho : deedOf o = none) (hu : ∀ d, o ≠ .updatePayment d) :
    s'.payment = s.payment ∧ s'.ledgerCredits = s.ledgerCredits := by
  rcases exec_eq_some h with ⟨-, rfl⟩ | h
  · exact ⟨rfl, rfl⟩
  · cases o with
    | updatePayment d => exact absurd rfl (hu d)
    | transition status next opts =>
      simp only [deedOf] at ho
      split at ho <;> cases ho
    | _ =>
      first
      | (simp [deedOf] at ho; done)
      | (simp only [Stmt.perform] at h
         (repeat' split at h) <;> cases h <;> exact ⟨rfl, rfl⟩)

end Standing

end SettlementOS.Analysis
