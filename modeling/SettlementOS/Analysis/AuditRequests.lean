import SettlementOS.Analysis.AuditPrograms

/-!
# The requests on the audit log

What a transaction has done when it comes to its commit can be committed (`Ready`): its events
are chained to what is committed, and if it has written the payment's row, it has appended the
event of that change. The verification reads outside of any transaction, and between its
reads the log only grows; it finds nothing wrong.
-/

set_option autoImplicit false

namespace SettlementOS.Analysis

open SettlementOS.Computation Model Program AuditLog Discipline

variable {env : AuditEnv} {scope : Option String} {init : String → Option Payment} {i : ℕ}
  {α : Type} {w : DbWorld env scope}

/-! ## Several events -/

/-- The fields of the event of a record. -/
def eventFields (env : AuditEnv) (record : AuditRecord) : EventFields :=
  ⟨record.action, record.actor, record.paymentId, env.stringifyDetail record.detail⟩

/-- `appendEvents`. -/
theorem appendEvents_safe {k : Work} {records : List AuditRecord} {events : List AuditEvent}
    (hw : Between i k events w) :
    (auditDiscipline env scope init).Safe i
      (fun _ w => ∃ es, Between i k (events ++ es) w ∧
        ∀ e ∈ es, ∃ r ∈ records, e.fields = eventFields env r)
      (fun _ _ => True) (appendEvents env records) w := by
  induction records generalizing events w with
  | nil => exact ⟨[], by rwa [List.append_nil], by simp⟩
  | cons record records ih =>
    refine safe_bind (safe_mono (appendEvent_safe hw) ?_ fun _ _ h => h)
    rintro e w ⟨hclean, hfields⟩
    refine safe_mono (ih (.inr hclean)) ?_ fun _ _ h => h
    rintro _ w ⟨es, hbetween, hes⟩
    refine ⟨e :: es, by simpa using hbetween, fun e' he' => ?_⟩
    rcases List.mem_cons.mp he' with rfl | hmem
    · exact ⟨record, List.mem_cons_self, hfields⟩
    · obtain ⟨r, hr, hf⟩ := hes e' hmem
      exact ⟨r, List.mem_cons_of_mem _ hr, hf⟩

/-! ## The row -/

/-- What writing a row amounts to. -/
def writing (id : String) (status : PaymentStatus) (data : PaymentPatch) (row : Payment) :
    Work where
  rows := Function.update (fun _ => none) id (some (row.apply data))
  found := Function.update (fun _ => none) id (some row)
  changes id' := if id = id' then (data.status.map fun next => (status, next)).toList else []

/-- The conditional update. -/
theorem updateMany_safe {id : String} {status : PaymentStatus} {data : PaymentPatch}
    (hw : Working i {} [] [] w) :
    (auditDiscipline env scope init).Safe i
      (fun count w => count ≠ 0 → ∃ row, row.status = status ∧
        Working i (writing id status data row) [] [] w)
      (fun _ _ => True) (query (.updateMany id status data)) w := by
  refine safe_query ⟨by simp, by simp, by simp⟩ known_working hw fun w count db hinv hF h => ?_
  have hpayment : w.state.payment i id = w.state.payments id := by
    simp [Database.payment, hF.pending]
  simp only [DbStmt.perform, hF.active, hpayment] at h
  split at h
  · rename_i p row hp hrow
    cases hp
    split at h
    · simp only [Option.some.injEq, Prod.mk.injEq, Except.ok.injEq] at h
      obtain ⟨rfl, rfl⟩ := h
      exact ⟨keeps_same hinv rfl rfl, fun hne => absurd rfl hne⟩
    rename_i hstatus
    split at h
    · cases h
    rename_i hlock
    simp only [Option.some.injEq, Prod.mk.injEq, Except.ok.injEq] at h
    obtain ⟨rfl, rfl⟩ := h
    have hfree : w.state.rowLock id = none ∨ w.state.rowLock id = some i := by
      by_cases hn : w.state.rowLock id = none
      · exact .inl hn
      · exact .inr (by by_contra hs; exact hlock ⟨hn, hs⟩)
    refine ⟨keeps_own hinv ?_ rfl rfl, fun _ => ⟨row, not_not.mp hstatus, ?_⟩⟩
    · refine ⟨rfl, rfl, rfl, fun j hj => Function.update_of_ne hj _ _,
        ⟨_, Function.update_self _ _ _, fun _ => ⟨rfl, rfl⟩, fun id' hne => ?_⟩, .inl rfl,
        fun id' => ?_, ⟨Nat.le_refl _, Nat.le_refl _⟩, .inl ⟨rfl, rfl⟩⟩
      · -- the row just written is the only one
        by_cases hid : id' = id
        · subst hid
          exact Function.update_self _ _ _
        · simp [Function.update_of_ne hid] at hne
      · by_cases hid : id' = id
        · subst hid
          exact .inr ⟨Function.update_self _ _ _, hfree⟩
        · exact .inl (Function.update_of_ne hid _ _)
    · refine ⟨Function.update_self _ _ _, fun id' row' hfound => ?_, fun id' => ?_⟩
      · by_cases hid : id' = id
        · subst hid
          simp only [writing, Function.update_self, Option.some.injEq] at hfound
          subst hfound
          exact ⟨Function.update_self _ _ _, hrow⟩
        · simp [writing, Function.update_of_ne hid] at hfound
      · have hempty : openChanges i id' w.history = [] := hF.changes id'
        have hchange : changes id' ⟨i, .updateMany id status data, .ok 1⟩ =
            if id = id' then data.status.map fun next => (status, next) else none := rfl
        rw [openChanges, if_pos rfl, if_neg (by simp [begins]), hempty, List.nil_append, hchange]
        simp only [writing]
        split <;> rfl
  · simp only [Option.some.injEq, Prod.mk.injEq, Except.ok.injEq] at h
    obtain ⟨rfl, rfl⟩ := h
    exact ⟨keeps_same hinv rfl rfl, fun hne => absurd rfl hne⟩
  · cases h

/-! ## What can be committed -/

/-- Program `i`'s transaction can be committed. -/
def Ready (i : ℕ) (w : DbWorld env scope) : Prop :=
  ∃ p, w.state.transactions i = .active p ∧ Committable env scope i p w.state w.history

/-- A program that is ready knows so. -/
theorem known_ready : Known i (Ready i : DbWorld env scope → Prop) where
  survives := by
    rintro w w' ⟨p, hp, hc⟩ hr hs
    refine ⟨p, hs.trans hp, ?_, fun id hid => ?_, fun id hid => ?_⟩
    · rcases hc.log with h | ⟨hl, hsound, hrecent⟩
      · exact .inl h
      · obtain ⟨hl', he, hk, hn, hm⟩ := hr.chain hl hs
        rw [he, hk, hn, hm]
        exact .inr ⟨hl', hsound, hrecent⟩
    · have hrow := hc.row id hid
      rw [hr.changes]
      split at hrow
      · exact hrow
      · obtain ⟨row, hl, hpay, hpath⟩ := hrow
        obtain ⟨hl', hpay'⟩ := hr.row id hl hs
        exact ⟨row, hl', hpay'.trans hpay, hpath⟩
    · rw [hr.changes]
      exact hc.recorded id hid
  reads := by
    rintro w e he ⟨p, hp, hc⟩
    refine ⟨p, hp, hc.log, fun id hid => ?_, fun id hid => ?_⟩
    · have := hc.row id hid
      rwa [← he.openChanges i id w.history] at this
    · have := hc.recorded id hid
      rwa [← he.openChanges i id w.history] at this

/-- A change of the payment in scope is written to its row. -/
def Work.Sound (k : Work) (id : String) : Prop :=
  match k.rows id with
  | none => k.changes id = []
  | some row' => ∃ row, k.found id = some row ∧ Path row.status (k.changes id) row'.status

/-- What has been appended, next to the changes it records, can be committed. -/
theorem ready_of_between {k : Work} {events : List AuditEvent} (hw : Between i k events w)
    (hrow : ∀ id, scope = some id → k.Sound id)
    (hrecorded : ∀ id, scope = some id →
      List.Forall₂ Carries (events.filter (statusEvent id)) (k.changes id)) : Ready i w := by
  obtain ⟨checkpoints, hworking, hlog⟩ : ∃ checkpoints, Working i k events checkpoints w ∧
      ((events = [] ∧ checkpoints = []) ∨ (w.state.chainLock = some i ∧
        SoundLog env (w.state.events ++ events) (w.state.checkpoints ++ checkpoints)
          w.state.nextEventId w.state.nextCheckpointId ∧
        Recent env (w.state.events ++ events) (w.state.checkpoints ++ checkpoints))) := by
    rcases hw with ⟨h, rfl⟩ | ⟨checkpoints, h, hrecent⟩
    · exact ⟨[], h, .inl ⟨rfl, rfl⟩⟩
    · exact ⟨checkpoints, h.toWorking, .inr ⟨h.lock, h.sound, hrecent⟩⟩
  refine ⟨_, hworking.active, hlog, fun id hid => ?_, fun id hid => ?_⟩
  · have hsound := hrow id hid
    unfold Work.Sound at hsound
    rw [hworking.changes]
    cases hk : k.rows id with
    | none => simpa only [hk] using hsound
    | some row' =>
      simp only [hk] at hsound ⊢
      obtain ⟨row, hfound, hpath⟩ := hsound
      obtain ⟨hl, hpay⟩ := hworking.found id row hfound
      exact ⟨row, hl, hpay, hpath⟩
  · rw [hworking.changes]
    exact hrecorded id hid

/-! ## Transactions -/

/-- The commit. -/
theorem commit_safe (hw : Ready i w) :
    (auditDiscipline env scope init).Safe i (fun _ _ => True) (fun _ _ => True)
    (query .commit) w := by
  refine safe_perform (P := fun (w : DbWorld env scope) =>
      w.state.transactions i = .aborted ∨ Ready i w) (R := fun _ _ => True) ?_ ?_ (.inr hw)
    fun r w _ => by cases r <;> trivial
  · rintro w w' (ha | hF') - hr
    · rcases hr.transaction with he | ⟨ha', -⟩
      · exact .inl (he.trans ha)
      · exact .inl ha'
    · rcases hr.transaction with he | ⟨ha', -⟩
      · exact .inr (known_ready.survives w w' hF' hr he)
      · exact .inl ha'
  · intro w hinv hP c r w' he
    refine ⟨?_, trivial⟩
    obtain ⟨db, hex, rfl⟩ := Service.World.exec_eq_some.mp he
    cases c with
    | some message =>
      simp only [DbStmt.exec, Option.some.injEq, Prod.mk.injEq] at hex
      obtain ⟨rfl, rfl⟩ := hex
      exact keeps_rollback hinv rfl rfl
    | none =>
      rcases hP with ha | ⟨p, hp, hc⟩
      · simp only [DbStmt.exec, Database.isAborted, ha, if_true, Option.some.injEq,
          Prod.mk.injEq] at hex
        obtain ⟨rfl, rfl⟩ := hex
        exact keeps_same hinv rfl rfl
      · simp only [DbStmt.exec, Database.isAborted, hp, Bool.false_eq_true, if_false,
          DbStmt.perform, Option.some.injEq, Prod.mk.injEq] at hex
        obtain ⟨rfl, rfl⟩ := hex
        exact keeps_commit hinv hp hc

/-- The rollback. -/
theorem abandon_safe {e : Err} :
    (auditDiscipline env scope init).Safe i (fun (_ : α) _ => True) (fun _ _ => True)
    (abandon e) w := by
  refine safe_bind (safe_perform (P := fun _ => True) (R := fun _ _ => True) (Stable.const True) ?_
    trivial fun r w _ => by cases r <;> trivial)
  intro w hinv _ c r w' he
  obtain ⟨db, hex, rfl⟩ := Service.World.exec_eq_some.mp he
  simp only [DbStmt.exec, DbStmt.perform, Option.some.injEq, Prod.mk.injEq] at hex
  obtain ⟨rfl, rfl⟩ := hex
  exact ⟨keeps_rollback hinv rfl rfl, trivial⟩

/-- The beginning. -/
theorem begin_safe (hw : w.state.transactions i = .idle) :
    (auditDiscipline env scope init).Safe i (fun _ w => Working i {} [] [] w) (fun _ _ => True)
      (query .begin) w := by
  refine safe_perform (P := fun (w : DbWorld env scope) => w.state.transactions i = .idle)
    (R := fun (r : dbEffects.Answer .begin) w => r = .ok () → Working i {} [] [] w) ?_ ?_ hw
    fun r w hr => by
      cases r with
      | ok a => exact hr rfl
      | error e => trivial
  · exact fun w w' hP _ hr => (auditDiscipline env scope init).start_stable i w w' hP hr
  · intro w hinv hP c r w' he
    obtain ⟨db, hex, rfl⟩ := Service.World.exec_eq_some.mp he
    cases c with
    | some message =>
      simp only [DbStmt.exec, Option.some.injEq, Prod.mk.injEq] at hex
      obtain ⟨rfl, rfl⟩ := hex
      exact ⟨keeps_same hinv rfl rfl, fun h => by cases h⟩
    | none =>
      simp only [DbStmt.exec, Database.isAborted, hP, Bool.false_eq_true, if_false,
        DbStmt.perform, Option.some.injEq, Prod.mk.injEq] at hex
      obtain ⟨rfl, rfl⟩ := hex
      refine ⟨keeps_own hinv ?_ rfl rfl, fun _ => ⟨Function.update_self _ _ _, ?_, fun id => ?_⟩⟩
      · exact ⟨rfl, rfl, rfl, fun j hj => Function.update_of_ne hj _ _,
          ⟨{}, Function.update_self _ _ _, fun _ => ⟨rfl, rfl⟩, fun id hne => absurd rfl hne⟩,
          .inl rfl, fun _ => .inl rfl, ⟨Nat.le_refl _, Nat.le_refl _⟩, .inl ⟨rfl, rfl⟩⟩
      · intro id row h
        cases h
      · rw [openChanges, if_pos rfl]
        rfl

/-- A transaction whose body is ready to be committed when it returns. -/
theorem transaction_safe {fn : Query α}
    (hfn : ∀ w : DbWorld env scope, Working i {} [] [] w →
      (auditDiscipline env scope init).Safe i (fun _ w => Ready i w) (fun _ _ => True) fn w)
    (hw : w.state.transactions i = .idle) :
    (auditDiscipline env scope init).Safe i (fun _ _ => True) (fun _ _ => True)
    (transaction fn) w := by
  refine safe_bind (safe_mono (begin_safe hw) ?_ fun _ _ h => h)
  intro _ w hw
  refine safe_handle (safe_mono (Q := fun _ _ => True) (X := fun _ _ => True) (safe_bind ?_)
    (fun _ _ _ => trivial) fun e w _ => abandon_safe)
  refine safe_mono (hfn w hw) (fun a w hready => ?_) fun _ _ h => h
  exact safe_bind (safe_mono (commit_safe hready) (fun _ _ h => h) fun _ _ h => h)

/-! ## Status changes -/

/-- The row the update wrote, and the event it is recorded with. -/
theorem ready_of_change {id : String} {status next : PaymentStatus} {opts : TransitionOpts}
    {row : Payment} {e : AuditEvent} (hlegal : canTransition status next = true)
    (hstatus : row.status = status) (hplain : scope = some id → PlainOpts opts)
    (hfields : e.fields = eventFields env (transitionRecord id status next opts))
    (hw : Clean i (writing id status (transitionData next opts) row) [e] w) : Ready i w := by
  have hpayment : e.paymentId = some id := congrArg EventFields.paymentId hfields
  have hdata (h : PlainOpts opts) : (transitionData next opts).status = some next := by
    simp only [transitionData, PaymentPatch.spread, h.status, releaseLease]
    split <;> rfl
  refine ready_of_between (.inr hw) (fun id' hid' => ?_) fun id' hid' => ?_
  · unfold Work.Sound writing
    by_cases hid : id' = id
    · subst hid
      have hnext := hdata (hplain hid')
      simp only [Function.update_self, if_true, hnext, Option.map_some, Option.toList_some]
      refine ⟨row, rfl, hstatus.symm, hlegal, ?_⟩
      simp [Payment.apply, hnext, Path]
    · simp only [Function.update_of_ne hid, if_neg (Ne.symm hid)]
  · simp only [writing]
    by_cases hid : id' = id
    · subst hid
      have hopts := hplain hid'
      have hcarries : Carries e (status, next) := by
        have : e.detail = env.stringifyDetail (transitionDetail status next opts) :=
          congrArg EventFields.detail hfields
        rw [Carries, this]
        exact opening_prefix hopts status next
      have hevent : statusEvent id' e = true := by
        simp only [statusEvent, hpayment, hcarries.opens, beq_self_eq_true, Bool.and_true]
      rw [List.filter_singleton, hevent, cond_true, if_pos rfl, hdata hopts]
      exact .cons hcarries .nil
    · have hevent : statusEvent id' e = false := by
        simp [statusEvent, hpayment, Ne.symm hid]
      rw [List.filter_singleton, hevent, cond_false, if_neg (Ne.symm hid)]
      exact .nil

/-- The body of the transaction of `transitionStatus`. -/
theorem swap_safe {id : String} {status next : PaymentStatus} {opts : TransitionOpts}
    (hlegal : canTransition status next = true) (hplain : scope = some id → PlainOpts opts)
    (hw : Working i {} [] [] w) :
    (auditDiscipline env scope init).Safe i (fun _ w => Ready i w) (fun _ _ => True)
      (swap env id status next opts) w := by
  refine safe_bind (safe_mono (updateMany_safe hw) ?_ fun _ _ h => h)
  intro count w hw
  split
  · trivial
  rename_i hcount
  obtain ⟨row, hstatus, hw⟩ := hw hcount
  refine safe_bind (safe_mono (safe_read (A := fun _ w => Working i _ [] [] w)
    (reading_findPayment id) known_working hw fun w a h _ _ hF => hF) ?_ fun _ _ h => h)
  intro updated w hw
  refine safe_bind (safe_mono (appendEvent_safe (.inl ⟨hw, rfl⟩)) ?_ fun _ _ h => h)
  rintro e w ⟨hclean, hfields⟩
  exact ready_of_change hlegal hstatus hplain hfields hclean

/-- `transitionStatus`. -/
theorem transitionStatus_safe {id : String} {status next : PaymentStatus} {opts : TransitionOpts}
    (hplain : scope = some id → PlainOpts opts) (hw : w.state.transactions i = .idle) :
    (auditDiscipline env scope init).Safe i (fun _ _ => True) (fun _ _ => True)
      (transitionStatus env id status next opts) w := by
  unfold transitionStatus
  split
  · rename_i hlegal
    exact transaction_safe (fun w hw => swap_safe hlegal hplain hw) hw
  · trivial

/-! ## The other appends -/

/-- `audit`, of records none of which looks like a status change of the payment in scope. -/
theorem audit_safe {records : List AuditRecord}
    (hrecords : (AuditRequest.audit records).Allowed scope) (hw : w.state.transactions i = .idle) :
    (auditDiscipline env scope init).Safe i (fun _ _ => True) (fun _ _ => True)
      (transaction (appendEvents env records)) w := by
  refine transaction_safe (fun w hw => ?_) hw
  refine safe_mono (appendEvents_safe (.inl ⟨hw, rfl⟩)) ?_ fun _ _ h => h
  rintro _ w ⟨es, hbetween, hes⟩
  refine ready_of_between hbetween (fun _ _ => rfl) fun id hid => ?_
  have hnone : (([] : List AuditEvent) ++ es).filter (statusEvent id) = [] := by
    refine List.filter_eq_nil_iff.mpr fun e he hevent => ?_
    obtain ⟨r, hr, hfields⟩ := hes e he
    have hpayment : e.paymentId = r.paymentId := congrArg EventFields.paymentId hfields
    have hdetail : e.detail = env.stringifyDetail r.detail := congrArg EventFields.detail hfields
    simp only [statusEvent, Bool.and_eq_true, beq_iff_eq, List.isPrefixOf_iff_prefix, hpayment,
      hdetail] at hevent
    exact not_opens_from (hrecords r hr (by simp [hevent.1]) (hevent.1.trans hid.symm)) hevent.2
  rw [hnone]
  exact .nil

/-- `createCheckpoint`. -/
theorem createCheckpoint_safe (hw : w.state.transactions i = .idle) :
    (auditDiscipline env scope init).Safe i (fun _ _ => True) (fun _ _ => True)
      (createCheckpoint env) w := by
  unfold createCheckpoint
  split
  · trivial
  rename_i key hkey
  refine transaction_safe (fun w hw => ?_) hw
  have hready (w : DbWorld env scope) (hw : Clean i {} [] w) : Ready i w :=
    ready_of_between (.inr hw) (fun _ _ => rfl) fun _ _ => .nil
  refine safe_bind (safe_mono (lockAuditChain_safe (.inl ⟨hw, rfl⟩)) ?_ fun _ _ h => h)
  intro _ w hw
  refine safe_bind (safe_mono (safe_read (A := fun last w => Clean i {} [] w ∧
    LockedWith i {} [] (fun es _ _ => last = es.getLast?) w) reading_lastEvent known_clean hw ?_) ?_
    fun _ _ h => h)
  · rintro w last h ⟨_, _, _⟩ hperform hF
    refine ⟨hF, ?_⟩
    obtain ⟨checkpoints, hl, -⟩ := hF
    refine ⟨checkpoints, hl, ?_⟩
    have hsound := hl.sound.lastEvent
    simp only [DbStmt.perform, Option.some.injEq, Prod.mk.injEq, Except.ok.injEq,
      and_true] at hperform
    rw [← hperform, Database.visibleEvents, show w.state.pending i = _ from hl.pending]
    simpa using hsound
  rintro last w ⟨hclean, hlast⟩
  cases last with
  | none => trivial
  | some tip =>
    have hboth : Clean i {} [] w ∧ LockedWith i {} [] (fun es _ _ => some tip = es.getLast?) w :=
      ⟨hclean, hlast⟩
    refine safe_bind (safe_mono (safe_read (A := fun _ w => Clean i {} [] w ∧
      LockedWith i {} [] (fun es _ _ => some tip = es.getLast?) w) reading_lastCheckpoint
      (known_clean.and known_lockedWith) hboth fun w a h _ _ hF => hF) ?_ fun _ _ h => h)
    rintro newest w ⟨hclean, hlocked⟩
    have hwrite : (auditDiscipline env scope init).Safe i (fun _ w => Ready i w) (fun _ _ => True)
        (writeCheckpoint env tip.id tip.hash key) w := by
      refine safe_mono (writeCheckpoint_safe hkey ?_) (fun _ w h => hready w h) fun _ _ h => h
      obtain ⟨checkpoints, hl, h⟩ := hlocked
      exact ⟨checkpoints, hl, by simpa using h.symm⟩
    cases newest with
    | none => exact hwrite
    | some c =>
      simp only
      split
      · exact hready w hclean
      · exact hwrite

/-! ## Verification -/

/-- Outside of a transaction, a program sees what is committed. -/
theorem visibleEvents_idle {db : Database} (h : db.transactions i = .idle) :
    db.visibleEvents i = db.events := by simp [Database.visibleEvents, Database.pending, h]

/-- Outside a transaction the committed checkpoints are visible. -/
theorem visibleCheckpoints_idle {db : Database} (h : db.transactions i = .idle) :
    db.visibleCheckpoints i = db.checkpoints := by
  simp [Database.visibleCheckpoints, Database.pending, h]

/-- What a program without a transaction reads, next to what it knows of the events. -/
theorem safe_readCommitted {o : DbStmt} {F : List AuditEvent → Prop}
    {A : o.Result → DbWorld env scope → Prop} (ho : Reading o)
    (hF : ∀ es es', F es → es <+: es' → F es')
    (hw : w.state.transactions i = .idle ∧ F w.state.events)
    (hA : ∀ (w : DbWorld env scope) a h, DbInv env scope init w.state w.history →
      w.state.transactions i = .idle → F w.state.events →
      o.perform i w.state = some (.ok a, w.state) → A a ⟨w.state, h⟩) :
    (auditDiscipline env scope init).Safe i A (fun _ _ => True) (query o) w := by
  refine safe_perform (P := fun (w : DbWorld env scope) => w.state.transactions i = .idle ∧
    F w.state.events) (R := fun (r : Except Err o.Result) w => ∀ a, r = .ok a → A a w) ?_ ?_ hw ?_
  · rintro w w' ⟨hidle, hf⟩ - hr
    exact ⟨(auditDiscipline env scope init).start_stable i w w' hidle hr, hF _ _ hf hr.events⟩
  · rintro w hinv ⟨hidle, hf⟩ c r w' he
    obtain ⟨db, hex, rfl⟩ := Service.World.exec_eq_some.mp he
    rcases exec_inner ho.inner hex with ⟨e, rfl, rfl⟩ | ⟨-, a, rfl, hperform⟩
    · exact ⟨keeps_same hinv rfl idle_error.commits, fun a h => by cases h⟩
    · obtain rfl := ho.same i w.state a db hperform
      refine ⟨keeps_same hinv rfl (ho.idle i a).commits, fun a' h => ?_⟩
      cases h
      exact hA w a _ hinv hidle hf hperform
  · intro r w hr
    cases r with
    | ok a => exact hr a rfl
    | error e => trivial

/-- The events are read. -/
theorem reading_findEvents (afterId : ℕ) : Reading (.findEvents afterId) :=
  ⟨⟨by simp, by simp, by simp⟩, fun _ _ => ⟨rfl, rfl, fun _ => rfl⟩, fun _ _ _ _ h => by
    simp only [DbStmt.perform, Option.some.injEq, Prod.mk.injEq] at h
    exact h.2.symm⟩

/-- One event is read. -/
theorem reading_findEvent (id : ℕ) : Reading (.findEvent id) :=
  ⟨⟨by simp, by simp, by simp⟩, fun _ _ => ⟨rfl, rfl, fun _ => rfl⟩, fun _ _ _ _ h => by
    simp only [DbStmt.perform, Option.some.injEq, Prod.mk.injEq] at h
    exact h.2.symm⟩

/-- `verifyAuditChain`: the events it read are a chain, the checkpoint it read after them anchors
an event of a log that has grown since, and it finds that event in one that has grown further. -/
theorem verifyAuditChain_safe (hw : w.state.transactions i = .idle) :
    (auditDiscipline env scope init).Safe i (fun r _ => r.valid = true) (fun _ _ => True)
      (verifyAuditChain env) w := by
  unfold verifyAuditChain AuditEnv.verifyAuditChain
  refine safe_bind (safe_mono (safe_readCommitted (F := fun _ => True) (A := fun events w =>
    w.state.transactions i = .idle ∧ Linked env "GENESIS" events) (reading_findEvents 0)
    (fun _ _ _ _ => trivial) ⟨hw, trivial⟩ ?_) ?_ fun _ _ h => h)
  · intro w events h hinv hidle _ hperform
    simp only [DbStmt.perform, Option.some.injEq, Prod.mk.injEq, Except.ok.injEq,
      and_true] at hperform
    rw [visibleEvents_idle hidle, findEvents_of_after hinv.sound.chain.ordered
      hinv.sound.chain.positive] at hperform
    exact ⟨hidle, hperform ▸ hinv.sound.chain.linked⟩
  rintro events w ⟨hidle, hlinked⟩
  have hvalid := checkChain_valid.mpr hlinked
  split
  · exact hvalid
  rename_i key hkey
  refine safe_bind (safe_mono (safe_readCommitted (F := fun _ => True) (A := fun last w =>
    w.state.transactions i = .idle ∧ ∀ c, last = some c → Anchored env w.state.events c)
    reading_lastCheckpoint (fun _ _ _ _ => trivial) ⟨hidle, trivial⟩ ?_) ?_ fun _ _ h => h)
  · intro w last h hinv hidle _ hperform
    simp only [DbStmt.perform, Option.some.injEq, Prod.mk.injEq, Except.ok.injEq,
      and_true] at hperform
    rw [visibleCheckpoints_idle hidle, lastCheckpoint_of_ordered hinv.sound.ordered] at hperform
    refine ⟨hidle, fun c hc => hinv.sound.anchored c (List.mem_of_getLast? ?_)⟩
    rw [hperform, hc]
  rintro last w ⟨hidle, hanchored⟩
  cases last with
  | none => exact hvalid
  | some c =>
    obtain ⟨key', e, hkey', he, hid, hhash, hsign⟩ := hanchored c rfl
    rw [hkey, Option.some.injEq] at hkey'
    subst hkey'
    simp only [hvalid, Bool.not_true, Bool.false_eq_true, if_false, signatureMatches, ← hsign,
      beq_self_eq_true]
    refine safe_bind (safe_mono (safe_readCommitted (F := fun es => e ∈ es)
      (A := fun found _ => found = some e) (reading_findEvent _) (fun _ _ h hp => hp.subset h)
      ⟨hidle, he⟩ ?_) ?_ fun _ _ h => h)
    · intro w found h hinv hidle he hperform
      simp only [DbStmt.perform, Option.some.injEq, Prod.mk.injEq, Except.ok.injEq, and_true]
        at hperform
      rw [← hperform, visibleEvents_idle hidle, ← hid,
        findEvent_of_ordered hinv.sound.chain.ordered he]
    · rintro found w rfl
      simp only [hhash, ne_eq, not_true_eq_false, if_false]
      exact rfl

/-! ## The discipline -/

/-- What a request comes back with: a verification, with nothing wrong. -/
def Verified (_ : { r : AuditRequest // r.Allowed scope }) (_ : ℕ) (reply : AuditReply)
    (_ : DbWorld env scope) : Prop :=
  ∀ integrity, reply = .integrity integrity → integrity.valid = true

/-- The requests on the log keep the discipline, from a database without events on. -/
theorem audit_holds : (auditDiscipline env scope init).Holds (Database.created init) Verified
    fun _ _ _ _ => True where
  inv := by
    refine ⟨soundLog_nil, recent_nil, fun _ h => ?_, fun _ _ h => ?_, fun _ _ _ h => ?_,
      fun id _ row h => ⟨row, h, rfl⟩, fun _ _ => .nil⟩ <;> cases h
  start _ := rfl
  outside w a db hinv h :=
    ⟨(rely_abort h 0 hinv).1, fun i => (rely_abort h i hinv).2⟩
  ret_stable _ _ _ := Stable.const _
  throw_stable _ _ _ := Stable.const _
  program := by
    rintro ⟨r, hr⟩ i w hinv hstart
    cases r with
    | transition id status next opts =>
      exact safe_bind (safe_mono (transitionStatus_safe hr hstart)
        (fun _ _ _ integrity h => by cases h) fun _ _ h => h)
    | audit records =>
      exact safe_bind (safe_mono (audit_safe hr hstart)
        (fun _ _ _ integrity h => by cases h) fun _ _ h => h)
    | checkpoint =>
      exact safe_bind (safe_mono (createCheckpoint_safe hstart)
        (fun _ _ _ integrity h => by cases h) fun _ _ h => h)
    | verify =>
      exact safe_bind (safe_mono (verifyAuditChain_safe hstart)
        (fun _ _ hvalid integrity h => by cases h; exact hvalid) fun _ _ h => h)

end SettlementOS.Analysis
