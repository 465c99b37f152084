import SettlementOS.Analysis.Priced
import SettlementOS.Analysis.Screening

/-!
# Nobody slips past the compliance gate

`Gate` is what a history says of a payment's clearance: it was taken out of `QUOTED` at most
once, whoever did that is the only one to have asked the vendors, what the payment's rows hold is
the screening that was stored, and a payment at `APPROVED` or behind has been cleared. It is kept
by every statement the law of clearance allows.
-/

set_option autoImplicit false

namespace SettlementOS.Analysis

open SettlementOS.Computation Service Model Program

variable {env : Env} {new : NewPayment} {request : Request} {i : ℕ} {o : Stmt} {c : Choice}
  {s s' : State} {r : Except Err o.Result} {h : History}

/-! ## Statements -/

/-- `APPROVED`, and every status that only it leads to. -/
def clearedStates : List PaymentStatus :=
  [.approved, .liquidityReserved, .submittedOnchain, .confirmedOnchain, .fxOrSwapCompleted,
    .payoutPending, .settled, .compensationPending, .compensated, .failed, .refunded]

/-- The way to a cleared status leads through `APPROVED`. -/
theorem cleared_before {status next : PaymentStatus} (h : canTransition status next = true)
    (hnext : next ∈ clearedStates) (hne : next ≠ .approved) : status ∈ clearedStates := by
  revert h hnext hne
  cases status <;> cases next <;> decide

/-- The event of an entry. -/
def eventOf (e : Entry sagaEffects) : Event sagaEffects := ⟨e.stmt, e.answer⟩

/-- An approving review of this payment, with the event it wrote. -/
def Approves (events : List AuditRecord) (pid : String) (e : Entry sagaEffects) : Prop :=
  ∃ actor note row,
    eventOf e = ⟨.transition .manualReview .approved (reviewOpts actor note), .ok (some row)⟩ ∧
      transitionRecord pid .manualReview .approved (reviewOpts actor note) ∈ events

/-- A screening was stored in which nothing failed; unless it approved by itself, there is an
approving review after it. -/
def Passed (events : List AuditRecord) (pid : String) (h : History) : Prop :=
  ∃ later e past checks, h = later ++ e :: past ∧ persisted (eventOf e) = some checks ∧
    (complianceOverall checks = .approved ∨
      (complianceOverall checks = .manualReview ∧ ∃ e' ∈ later, Approves events pid e'))

/-- Who has passed has passed still, whatever is added to the events. -/
theorem Passed.cons {events events' : List AuditRecord} {pid : String}
    (hc : Passed events pid h) (hevents : events ⊆ events') (x : Entry sagaEffects) :
    Passed events' pid (x :: h) := by
  obtain ⟨later, e, past, checks, rfl, hstored, hoverall⟩ := hc
  refine ⟨x :: later, e, past, checks, rfl, hstored, hoverall.imp (fun happroved => happroved) ?_⟩
  rintro ⟨hreview, e', he', actor, note, row, heq, hmem⟩
  exact ⟨hreview, e', List.mem_cons_of_mem _ he', actor, note, row, heq, hevents hmem⟩

/-- What a history says of the payment's clearance. -/
structure Gate (s : State) (h : History) : Prop where
  early : s.payment.status.rank ≤ 1 → ∀ e ∈ h, exits (eventOf e) = false
  oneExit : (h.countP fun e => exits (eventOf e)) ≤ 1
  owned : ∀ e ∈ h, screens (eventOf e) = true ∨ stores (eventOf e) = true →
    ∃ x ∈ h, x.tid = e.tid ∧ exits (eventOf x) = true
  oneScreening : (h.countP fun e => screens (eventOf e)) ≤ h.countP fun e => exits (eventOf e)
  stored : ∀ e ∈ h, ∀ checks, persisted (eventOf e) = some checks →
    s.complianceChecks = checks ∧ checks.map ComplianceCheck.checkType = checkTypes
  unstored : (∀ e ∈ h, stores (eventOf e) = false) → s.complianceChecks = []
  review : s.payment.status = .manualReview →
    ∃ e ∈ h, ∃ checks, persisted (eventOf e) = some checks ∧
      complianceOverall checks = .manualReview
  cleared : s.payment.status ∈ clearedStates → Passed s.auditEvents s.payment.id h

/-! ## What a statement does to the rows -/

/-- A stored screening is added to the rows; nothing else is. -/
theorem checks_of_exec (he : o.exec c s = some (r, s')) :
    s'.complianceChecks = s.complianceChecks ++ (persisted ⟨o, r⟩).getD [] := by
  rcases exec_eq_some he with ⟨⟨m, rfl⟩, rfl⟩ | hp
  · cases o <;> exact (List.append_nil _).symm
  · cases o with
    | createComplianceChecks checks =>
      cases hp
      rfl
    | _ =>
      have hsame : s'.complianceChecks = s.complianceChecks := by
        simp only [Stmt.perform, State.transition, State.reserve] at hp
        (repeat' split at hp) <;> cases hp <;> rfl
      rw [hsame]
      exact (List.append_nil _).symm

/-- The status stays, or is changed along the lifecycle, with its grounds. -/
inductive StatusStep (request : Request) (past : List (Event sagaEffects)) (s s' : State)
    (x : Event sagaEffects) : Prop where
  | same (hstatus : s'.payment.status = s.payment.status) (hid : s'.payment.id = s.payment.id)
      (hexits : exits x = false) (hevents : s.auditEvents ⊆ s'.auditEvents)
  | moved (next : PaymentStatus) (opts : TransitionOpts) (row : Payment)
      (heq : x = ⟨.transition s.payment.status next opts, .ok (some row)⟩)
      (hcan : canTransition s.payment.status next = true)
      (hfounded : Founded request past s.payment.status opts next)
      (hstatus : s'.payment.status = next) (hid : s'.payment.id = s.payment.id)
      (hevents : s'.auditEvents = s.auditEvents ++
        [transitionRecord s.payment.id s.payment.status next opts])

/-- A statement the law allows changes the status along the lifecycle, with its grounds, or not. -/
theorem statusStep_of_exec {past : List (Event sagaEffects)}
    (hallows : (clears request).Allows past ⟨o, r⟩) (he : o.exec c s = some (r, s')) :
    StatusStep request past s s' ⟨o, r⟩ := by
  rcases exec_eq_some he with ⟨⟨m, rfl⟩, rfl⟩ | hp
  · refine .same rfl rfl ?_ (List.Subset.refl _)
    cases o with
    | transition status next opts => cases status <;> cases next <;> rfl
    | _ => rfl
  · cases o with
    | transition status next opts =>
      obtain ⟨hcan, hdata, hfounded⟩ := hallows
      simp only [Stmt.perform, State.transition] at hp
      split at hp
      · rename_i hstatus
        cases hp
        subst hstatus
        exact .moved next opts _ rfl hcan hfounded (apply_status _ _ _ hdata) rfl rfl
      · cases hp
        refine .same rfl rfl ?_ (List.Subset.refl _)
        cases status <;> cases next <;> rfl
    | updatePayment data =>
      cases hp
      have hdata : data.status = none := hallows
      exact .same (by simp [Payment.apply, hdata]) rfl rfl (List.Subset.refl _)
    | audit record =>
      cases hp
      exact .same rfl rfl rfl (List.subset_append_left _ _)
    | _ =>
      refine .same ?_ ?_ rfl ?_ <;>
        (simp only [Stmt.perform, State.reserve] at hp
         (repeat' split at hp) <;> cases hp <;> first | rfl | exact List.Subset.refl _)

/-- Which status change takes a payment out of `QUOTED`. -/
theorem exits_transition {status next : PaymentStatus} {opts : TransitionOpts} {row : Payment} :
    exits ⟨.transition status next opts, .ok (some row)⟩ = true ↔
      status = .quoted ∧ next = .compliancePending := by
  cases status <;> cases next <;> simp [exits]

/-- The row a status change answers has the status it was changed to. -/
theorem answersRow_of_exec (he : o.exec c s = some (r, s')) : AnswersRow o r := by
  rcases exec_eq_some he with ⟨⟨m, rfl⟩, -⟩ | hp
  · cases o <;> trivial
  · cases o with
    | transition status next opts =>
      simp only [Stmt.perform, State.transition] at hp
      split at hp <;> cases hp
      · exact fun hdata => apply_status _ _ _ hdata
      · trivial
    | _ => trivial

/-- Only an execution takes a payment out of `QUOTED`. -/
theorem execute_of_exits {past : List (Event sagaEffects)} {x : Event sagaEffects}
    (hallows : (clears request).Allows past x) (hx : exits x = true) :
    ∃ actor routeId, request = .execute actor routeId := by
  obtain ⟨o, r⟩ := x
  cases o with
  | transition status next opts =>
    cases r with
    | error e => cases status <;> cases next <;> cases hx
    | ok row =>
      cases row with
      | none => cases status <;> cases next <;> cases hx
      | some row =>
        obtain ⟨rfl, rfl⟩ := exits_transition.mp hx
        exact hallows.2.2
  | _ => cases hx

/-! ## One statement more -/

/-- Of what happened at most once there is one. -/
theorem eq_of_countP_le_one {α : Type} {p : α → Bool} {l : List α} (h : l.countP p ≤ 1) {a b : α}
    (ha : a ∈ l) (hb : b ∈ l) (hpa : p a = true) (hpb : p b = true) : a = b := by
  induction l with
  | nil => cases ha
  | cons x l ih =>
    by_cases hpx : p x = true
    · rw [List.countP_cons_of_pos hpx] at h
      have hzero : l.countP p = 0 := by omega
      have hnone : ∀ y ∈ l, p y ≠ true := List.countP_eq_zero.mp hzero
      have heq : ∀ y ∈ x :: l, p y = true → y = x := fun y hy hpy =>
        (List.mem_cons.mp hy).resolve_right fun hy => hnone y hy hpy
      rw [heq a ha hpa, heq b hb hpb]
    · rw [List.countP_cons_of_neg hpx] at h
      have hne : ∀ y ∈ x :: l, p y = true → y ∈ l := fun y hy hpy =>
        (List.mem_cons.mp hy).resolve_left fun hyx => hpx (hyx ▸ hpy)
      exact ih h (hne a ha hpa) (hne b hb hpb)

/-- What program `i` performed is on its trail. -/
theorem mem_trail {e : Entry sagaEffects} (he : e ∈ h) : eventOf e ∈ trail e.tid h :=
  mem_own_trail he

namespace Gate

/-- Whoever screens or stores has taken the payment out of `QUOTED`, as has whoever did before;
so it is the same one. -/
theorem own (hG : Gate s h) (hexit : ∃ x ∈ trail i h, exits x = true) {e : Entry sagaEffects}
    (he : e ∈ h) (hs : screens (eventOf e) = true ∨ stores (eventOf e) = true) :
    eventOf e ∈ trail i h := by
  obtain ⟨x, hx, hexits⟩ := hexit
  obtain ⟨y, hy, htid, hy'⟩ := hG.owned e he hs
  have hxy := eq_of_countP_le_one hG.oneExit hy (mem_of_trail hx) hy' hexits
  have hi : e.tid = i := by rw [← htid, hxy]
  exact hi ▸ mem_trail he

/-- While the payment is no further than quoted nobody has taken it out of `QUOTED`. -/
theorem early_exec (hG : Gate s h) (hstep : StatusStep request (trail i h) s s' ⟨o, r⟩)
    (hrank : s'.payment.status.rank ≤ 1) :
    ∀ e ∈ (⟨i, o, r⟩ : Entry sagaEffects) :: h, exits (eventOf e) = false := by
  cases hstep with
  | same hstatus hid hexits hevents =>
    intro e he
    rcases List.mem_cons.mp he with rfl | he
    · exact hexits
    · exact hG.early (hstatus ▸ hrank) e he
  | moved next opts row heq hcan hfounded hstatus hid hevents =>
    have hold : s.payment.status.rank ≤ 1 :=
      Nat.le_trans (leads_of_canTransition hcan).rank_le (hstatus ▸ hrank)
    intro e he
    rcases List.mem_cons.mp he with rfl | he
    · apply Bool.eq_false_iff.mpr
      intro hexits
      rw [eventOf, heq, exits_transition] at hexits
      rw [hstatus, hexits.2] at hrank
      exact absurd hrank (by decide)
    · exact hG.early hold e he

/-- It is taken out of `QUOTED` at most once. -/
theorem oneExit_exec (hG : Gate s h) (hstep : StatusStep request (trail i h) s s' ⟨o, r⟩) :
    (((⟨i, o, r⟩ : Entry sagaEffects) :: h).countP fun e => exits (eventOf e)) ≤ 1 := by
  by_cases hexits : exits ⟨o, r⟩ = true
  · -- the payment was at QUOTED, so nobody had taken it out of there
    have hnone : (h.countP fun e => exits (eventOf e)) = 0 := by
      cases hstep with
      | same hstatus hid hsame hevents =>
        rw [hsame] at hexits
        cases hexits
      | moved next opts row heq hcan hfounded hstatus hid hevents =>
        rw [heq, exits_transition] at hexits
        refine List.countP_eq_zero.mpr fun e he => ?_
        rw [hG.early (by rw [hexits.1]; decide) e he]
        decide
    rw [List.countP_cons_of_pos (p := fun e => exits (eventOf e)) (a := ⟨i, o, r⟩) hexits, hnone]
  · rw [List.countP_cons_of_neg (p := fun e => exits (eventOf e)) (a := ⟨i, o, r⟩) hexits]
    exact hG.oneExit

/-- What one's own trail must have for a statement, and must not have. -/
theorem screens_law (hallows : (clears request).Allows (trail i h) ⟨o, r⟩)
    (hs : screens ⟨o, r⟩ = true) :
    (∃ x ∈ trail i h, exits x = true) ∧ ∀ x ∈ trail i h, screens x = false := by
  cases o with
  | screen a b => exact hallows
  | _ => cases hs

/-- Who stores a screening has taken it out of `QUOTED`, and has stored none before. -/
theorem stores_law (hallows : (clears request).Allows (trail i h) ⟨o, r⟩)
    (hs : stores ⟨o, r⟩ = true) :
    (∃ x ∈ trail i h, exits x = true) ∧ ∀ x ∈ trail i h, stores x = false := by
  cases o with
  | createComplianceChecks checks => exact ⟨hallows.1, hallows.2.1⟩
  | _ => cases hs

/-- Who asks the vendors or stores a screening has taken it out of `QUOTED`. -/
theorem owned_exec (hG : Gate s h) (hallows : (clears request).Allows (trail i h) ⟨o, r⟩) :
    ∀ e ∈ (⟨i, o, r⟩ : Entry sagaEffects) :: h,
      screens (eventOf e) = true ∨ stores (eventOf e) = true →
        ∃ x ∈ (⟨i, o, r⟩ : Entry sagaEffects) :: h, x.tid = e.tid ∧ exits (eventOf x) = true := by
  intro e he hs
  rcases List.mem_cons.mp he with rfl | he
  · obtain ⟨x, hx, hexits⟩ : ∃ x ∈ trail i h, exits x = true :=
      hs.elim (fun hs => (screens_law hallows hs).1) fun hs => (stores_law hallows hs).1
    exact ⟨_, List.mem_cons_of_mem _ (mem_of_trail hx), rfl, hexits⟩
  · obtain ⟨x, hx, htid, hexits⟩ := hG.owned e he hs
    exact ⟨x, List.mem_cons_of_mem _ hx, htid, hexits⟩

/-- There are no more screenings than exits. -/
theorem oneScreening_exec (hG : Gate s h)
    (hallows : (clears request).Allows (trail i h) ⟨o, r⟩) :
    (((⟨i, o, r⟩ : Entry sagaEffects) :: h).countP fun e => screens (eventOf e)) ≤
      ((⟨i, o, r⟩ : Entry sagaEffects) :: h).countP fun e => exits (eventOf e) := by
  by_cases hs : screens ⟨o, r⟩ = true
  · obtain ⟨⟨x, hx, hexits⟩, hnone⟩ := screens_law hallows hs
    have hzero : (h.countP fun e => screens (eventOf e)) = 0 := by
      refine List.countP_eq_zero.mpr fun e he hscreens => ?_
      have hown := hG.own ⟨x, hx, hexits⟩ he (.inl hscreens)
      rw [hnone _ hown] at hscreens
      cases hscreens
    have hpos : 0 < h.countP fun e => exits (eventOf e) :=
      List.countP_pos_iff.mpr ⟨_, mem_of_trail hx, hexits⟩
    rw [List.countP_cons_of_pos (p := fun e => screens (eventOf e)) (a := ⟨i, o, r⟩) hs, hzero]
    exact Nat.le_trans hpos (List.Sublist.countP_le (List.sublist_cons_self _ _))
  · rw [List.countP_cons_of_neg (p := fun e => screens (eventOf e)) (a := ⟨i, o, r⟩) hs]
    exact Nat.le_trans hG.oneScreening (List.Sublist.countP_le (List.sublist_cons_self _ _))

/-- A screening that is stored was stored, or has just been. -/
theorem stores_of_persisted {x : Event sagaEffects} {checks : List ComplianceCheck}
    (hx : persisted x = some checks) : stores x = true := by
  obtain ⟨o, r⟩ := x
  cases o with
  | createComplianceChecks checks => rfl
  | _ => cases r <;> cases hx

/-- A screening that is stored is the first. -/
theorem first_of_stores (hG : Gate s h) (hallows : (clears request).Allows (trail i h) ⟨o, r⟩)
    (hs : stores ⟨o, r⟩ = true) : ∀ e ∈ h, stores (eventOf e) = false := by
  intro e he
  apply Bool.eq_false_iff.mpr
  intro hstores
  obtain ⟨hexit, hnone⟩ := stores_law hallows hs
  rw [hnone _ (hG.own hexit he (.inr hstores))] at hstores
  cases hstores

/-- What was stored is what the rows hold, all of the checks. -/
theorem stored_exec (hG : Gate s h) (hallows : (clears request).Allows (trail i h) ⟨o, r⟩)
    (he : o.exec c s = some (r, s')) :
    ∀ e ∈ (⟨i, o, r⟩ : Entry sagaEffects) :: h, ∀ checks, persisted (eventOf e) = some checks →
      s'.complianceChecks = checks ∧ checks.map ComplianceCheck.checkType = checkTypes := by
  intro e hmem checks hchecks
  have hrows := checks_of_exec he
  rcases List.mem_cons.mp hmem with rfl | hmem
  · have hfirst := hG.unstored (hG.first_of_stores hallows (stores_of_persisted hchecks))
    have hnew : persisted ⟨o, r⟩ = some checks := hchecks
    refine ⟨by rw [hrows, hfirst, hnew]; rfl, ?_⟩
    cases o with
    | createComplianceChecks stored =>
      cases r with
      | ok u =>
        cases hnew
        exact hallows.2.2
      | error e => cases hnew
    | _ => cases r <;> cases hnew
  · have hold : persisted ⟨o, r⟩ = none := by
      by_contra hne
      obtain ⟨checks', hchecks'⟩ := Option.ne_none_iff_exists'.mp hne
      have hfirst := hG.first_of_stores hallows (stores_of_persisted hchecks') e hmem
      rw [stores_of_persisted hchecks] at hfirst
      cases hfirst
    rw [hrows, hold]
    exact ⟨(List.append_nil _).trans (hG.stored e hmem checks hchecks).1,
      (hG.stored e hmem checks hchecks).2⟩

/-- Without a stored screening there are no rows. -/
theorem unstored_exec (hG : Gate s h) (he : o.exec c s = some (r, s'))
    (hnone : ∀ e ∈ (⟨i, o, r⟩ : Entry sagaEffects) :: h, stores (eventOf e) = false) :
    s'.complianceChecks = [] := by
  have hnew : persisted ⟨o, r⟩ = none := by
    by_contra hne
    obtain ⟨checks, hchecks⟩ := Option.ne_none_iff_exists'.mp hne
    have hstores := hnone _ List.mem_cons_self
    rw [eventOf, stores_of_persisted hchecks] at hstores
    cases hstores
  rw [checks_of_exec he, hnew, hG.unstored fun e hmem => hnone e (List.mem_cons_of_mem _ hmem)]
  rfl

/-- What a gate has concluded is in the history. -/
theorem exists_of_concluded {overall : ComplianceOverall} (hc : Concluded (trail i h) overall) :
    ∃ e ∈ h, ∃ checks, persisted (eventOf e) = some checks ∧
      complianceOverall checks = overall := by
  obtain ⟨x, hx, checks, hstored, hoverall⟩ := hc
  exact ⟨_, mem_of_trail hx, checks, hstored, hoverall⟩

/-- A payment in review has a screening that asks for one. -/
theorem review_exec (hG : Gate s h) (hstep : StatusStep request (trail i h) s s' ⟨o, r⟩)
    (hs : s'.payment.status = .manualReview) :
    ∃ e ∈ (⟨i, o, r⟩ : Entry sagaEffects) :: h, ∃ checks, persisted (eventOf e) = some checks ∧
      complianceOverall checks = .manualReview := by
  have hpast : ∃ e ∈ h, ∃ checks, persisted (eventOf e) = some checks ∧
      complianceOverall checks = .manualReview := by
    cases hstep with
    | same hstatus hid hexits hevents => exact hG.review (hstatus ▸ hs)
    | moved next opts row heq hcan hfounded hstatus hid hevents =>
      obtain rfl : next = .manualReview := hstatus ▸ hs
      exact exists_of_concluded hfounded
  obtain ⟨e, hmem, hchecks⟩ := hpast
  exact ⟨e, List.mem_cons_of_mem _ hmem, hchecks⟩

/-- A payment that is cleared has passed. -/
theorem cleared_exec (hG : Gate s h) (hstep : StatusStep request (trail i h) s s' ⟨o, r⟩)
    (hs : s'.payment.status ∈ clearedStates) :
    Passed s'.auditEvents s'.payment.id (⟨i, o, r⟩ :: h) := by
  cases hstep with
  | same hstatus hid hexits hevents =>
    rw [hid]
    exact (hG.cleared (hstatus ▸ hs)).cons hevents _
  | moved next opts row heq hcan hfounded hstatus hid hevents =>
    rw [hid]
    have hgrow : s.auditEvents ⊆ s'.auditEvents := hevents ▸ List.subset_append_left _ _
    by_cases happroved : next = .approved
    · subst happroved
      rcases hfounded with ⟨hconcluded, -⟩ | ⟨hreview, actor, note, -, rfl⟩
      · obtain ⟨e, hmem, checks, hstored, hoverall⟩ := exists_of_concluded hconcluded
        obtain ⟨later, past, rfl⟩ := List.append_of_mem hmem
        exact ⟨_ :: later, e, past, checks, rfl, hstored, .inl hoverall⟩
      · obtain ⟨e, hmem, checks, hstored, hoverall⟩ := hG.review hreview
        obtain ⟨later, past, rfl⟩ := List.append_of_mem hmem
        rw [hreview] at heq hevents
        refine ⟨_ :: later, e, past, checks, rfl, hstored, .inr ⟨hoverall, _,
          List.mem_cons_self, actor, note, row, heq, ?_⟩⟩
        rw [hevents]
        exact List.mem_append_right _ (List.mem_singleton_self _)
    · exact (hG.cleared (cleared_before hcan (hstatus ▸ hs) happroved)).cons hgrow _

/-- **Every statement the law allows keeps the gate.** -/
theorem exec (hG : Gate s h) (hallows : (clears request).Allows (trail i h) ⟨o, r⟩)
    (he : o.exec c s = some (r, s')) : Gate s' (⟨i, o, r⟩ :: h) where
  early := hG.early_exec (statusStep_of_exec hallows he)
  oneExit := hG.oneExit_exec (statusStep_of_exec hallows he)
  owned := hG.owned_exec hallows
  oneScreening := hG.oneScreening_exec hallows
  stored := hG.stored_exec hallows he
  unstored := hG.unstored_exec he
  review := hG.review_exec (statusStep_of_exec hallows he)
  cleared := hG.cleared_exec (statusStep_of_exec hallows he)

/-- Mining touches none of it. -/
theorem mine (hG : Gate s h) {m : Mining} (hm : m.exec s = some s') : Gate s' h := by
  obtain ⟨hash, network, call, receipt, -, -, rfl⟩ := mine_eq_some hm
  exact ⟨hG.early, hG.oneExit, hG.owned, hG.oneScreening, hG.stored, hG.unstored, hG.review,
    hG.cleared⟩

end Gate

/-! ## Runs -/

/-- In every run each program keeps the law of its request. -/
theorem clears_lawful {c : (sagaService env).Config}
    (h : (Config.start (S := sagaService env) (State.created new)).Reaches c) :
    Lawful (S := sagaService env) (fun _ request => clears request) (fun _ _ _ _ => True)
      (fun _ _ _ _ => True) c :=
  h.keeps (fun _ _ _ _ _ _ he _ => answersRow_of_exec he) request_clears

/-- **Along every run the gate holds.** -/
theorem gate {c : (sagaService env).Config}
    (h : (Config.start (S := sagaService env) (State.created new)).Reaches c) :
    Gate c.world.state c.world.history := by
  refine h.induct (P := fun c => Gate c.world.state c.world.history) ?_ ?_
  · constructor <;> simp [Config.start, State.created, NewPayment.row, clearedStates]
  · intro c₁ m c₂ hreach hG hm
    rcases Config.step_eq_some hm with ⟨r, -, rfl⟩ | ⟨i, ch, r, o, k, a, w, -, -, he, rfl⟩ |
      ⟨x, s, -, hs, rfl⟩
    · exact hG
    · obtain ⟨s, hs, rfl⟩ := World.exec_eq_some.mp he
      obtain ⟨t, -, hallows⟩ := (clears_lawful (hreach.tail hm)).allows (l := []) rfl
      exact hG.exec hallows hs
    · exact hG.mine hs

end SettlementOS.Analysis
