import SettlementOS.Analysis.Appending

/-!
# The programs on the audit log

Each function along its text. A transaction starts with nothing; it may write the payment's row,
and it appends under the advisory lock, after each append to a sound log with a recent
checkpoint. What it has done can be committed; wherever it throws, it is rolled back.
-/

set_option autoImplicit false

namespace SettlementOS.Analysis

open SettlementOS.Computation Model Program AuditLog Discipline

variable {env : AuditEnv} {scope : Option String} {init : String → Option Payment} {i : ℕ}
  {α : Type} {w : DbWorld env scope}

/-! ## What a program knows -/

/-- What a program has done in its transaction, next to its appends. -/
structure Work where
  /-- the rows it has written -/
  rows : String → Option Payment := fun _ => none
  /-- the rows they were before -/
  found : String → Option Payment := fun _ => none
  /-- the changes it has made -/
  changes : String → List Change := fun _ => []

/-- Program `i`'s transaction is open, with these appends. -/
structure Working (i : ℕ) (k : Work) (events : List AuditEvent) (checkpoints : List AuditCheckpoint)
    (w : DbWorld env scope) : Prop where
  active : w.state.transactions i = .active ⟨k.rows, events, checkpoints⟩
  found : ∀ id row, k.found id = some row → w.state.rowLock id = some i ∧
    w.state.payments id = some row
  changes : ∀ id, openChanges i id w.history = k.changes id

/-- It holds the advisory lock, and what it sees is a sound log. -/
structure Locked (i : ℕ) (k : Work) (events : List AuditEvent) (checkpoints : List AuditCheckpoint)
    (w : DbWorld env scope) : Prop extends Working i k events checkpoints w where
  lock : w.state.chainLock = some i
  sound : SoundLog env (w.state.events ++ events) (w.state.checkpoints ++ checkpoints)
    w.state.nextEventId w.state.nextCheckpointId

/-- It holds the advisory lock, and `G` holds of the events and the checkpoints that are committed
and of its own checkpoints. -/
def LockedWith (i : ℕ) (k : Work) (events : List AuditEvent)
    (G : List AuditEvent → List AuditCheckpoint → List AuditCheckpoint → Prop)
    (w : DbWorld env scope) : Prop :=
  ∃ checkpoints, Locked i k events checkpoints w ∧ G w.state.events w.state.checkpoints checkpoints

/-- It has appended these events, and a checkpoint when one was due. -/
def Clean (i : ℕ) (k : Work) (events : List AuditEvent) : DbWorld env scope → Prop :=
  LockedWith i k events fun es cs checkpoints => Recent env (es ++ events) (cs ++ checkpoints)

/-- It has appended these events, or nothing yet and may not hold the advisory lock. -/
def Between (i : ℕ) (k : Work) (events : List AuditEvent) (w : DbWorld env scope) : Prop :=
  (Working i k [] [] w ∧ events = []) ∨ Clean i k events w

/-- What a program may know in its transaction: it survives the others' steps as long as the
transaction is not aborted, and the program's own reads. -/
structure Known (i : ℕ) (F : DbWorld env scope → Prop) : Prop where
  survives : ∀ w w' : DbWorld env scope, F w → DbRely i w.state w'.state w.history w'.history →
    w'.state.transactions i = w.state.transactions i → F w'
  reads : ∀ (w : DbWorld env scope) (e : Entry dbEffects), Idle e → F w →
    F ⟨w.state, e :: w.history⟩

/-- Two things it knows. -/
theorem Known.and {F G : DbWorld env scope → Prop} (hF : Known i F) (hG : Known i G) :
    Known i fun w => F w ∧ G w where
  survives w w' h hr hs := ⟨hF.survives w w' h.1 hr hs, hG.survives w w' h.2 hr hs⟩
  reads w e he h := ⟨hF.reads w e he h.1, hG.reads w e he h.2⟩

/-- A program that is working knows that its transaction is open. -/
theorem known_working {k : Work} {events : List AuditEvent} {checkpoints : List AuditCheckpoint} :
    Known i (Working i k events checkpoints : DbWorld env scope → Prop) where
  survives w w' h hr hs := by
    refine ⟨hs.trans h.active, fun id row hid => ?_, fun id => (hr.changes id).trans (h.changes id)⟩
    obtain ⟨hl, hrow⟩ := h.found id row hid
    obtain ⟨hl', hrow'⟩ := hr.row id hl hs
    exact ⟨hl', hrow'.trans hrow⟩
  reads w e he h :=
    ⟨h.active, h.found, fun id => (he.openChanges i id w.history).trans (h.changes id)⟩

/-- So does one that has locked the chain. -/
theorem known_lockedWith {k : Work} {events : List AuditEvent}
    {G : List AuditEvent → List AuditCheckpoint → List AuditCheckpoint → Prop} :
    Known i (LockedWith i k events G : DbWorld env scope → Prop) where
  survives := by
    rintro w w' ⟨checkpoints, h, hG⟩ hr hs
    obtain ⟨hl, he, hc, hn, hm⟩ := hr.chain h.lock hs
    refine ⟨checkpoints, ⟨known_working.survives w w' h.toWorking hr hs, hl, ?_⟩, ?_⟩
    · rw [he, hc, hn, hm]
      exact h.sound
    · rwa [he, hc]
  reads := by
    rintro w e he ⟨checkpoints, h, hG⟩
    exact ⟨checkpoints, ⟨known_working.reads w e he h.toWorking, h.lock, h.sound⟩, hG⟩

/-- So does one that has written nothing yet. -/
theorem known_clean {k : Work} {events : List AuditEvent} :
    Known i (Clean i k events : DbWorld env scope → Prop) := known_lockedWith

/-- So does one between its two writes. -/
theorem known_between {k : Work} {events : List AuditEvent} :
    Known i (Between i k events : DbWorld env scope → Prop) where
  survives := by
    rintro w w' (⟨h, he⟩ | h) hr hs
    · exact .inl ⟨known_working.survives w w' h hr hs, he⟩
    · exact .inr (known_clean.survives w w' h hr hs)
  reads := by
    rintro w e he (⟨h, hnil⟩ | h)
    · exact .inl ⟨known_working.reads w e he h, hnil⟩
    · exact .inr (known_clean.reads w e he h)

/-- A statement inside a transaction, in a world with `F`. -/
theorem safe_query {o : DbStmt} {F : DbWorld env scope → Prop}
    {Q : o.Result → DbWorld env scope → Prop} (ho : Inner o) (hF : Known i F) (hw : F w)
    (hok : ∀ (w : DbWorld env scope) a db, DbInv env scope init w.state w.history → F w →
      o.perform i w.state = some (.ok a, db) →
      (auditDiscipline env scope init).Keeps i w ⟨db, ⟨i, o, .ok a⟩ :: w.history⟩ ∧
        Q a ⟨db, ⟨i, o, .ok a⟩ :: w.history⟩) :
    (auditDiscipline env scope init).Safe i Q (fun _ _ => True) (query o) w := by
  refine safe_perform (P := fun (w : DbWorld env scope) => w.state.transactions i = .aborted ∨ F w)
    (R := fun (r : Except Err o.Result) w => ∀ a, r = .ok a → Q a w) ?_ ?_ (.inr hw) ?_
  · -- an aborted transaction stays so
    rintro w w' (ha | hF') - hr
    · rcases hr.transaction with he | ⟨ha', -⟩
      · exact .inl (he.trans ha)
      · exact .inl ha'
    · rcases hr.transaction with he | ⟨ha', -⟩
      · exact .inr (hF.survives w w' hF' hr he)
      · exact .inl ha'
  · intro w hinv hP c r w' he
    obtain ⟨db, hex, rfl⟩ := Service.World.exec_eq_some.mp he
    rcases exec_inner ho hex with ⟨e, rfl, rfl⟩ | ⟨hlive, a, rfl, hperform⟩
    · exact ⟨keeps_same hinv rfl idle_error.commits, fun a h => by cases h⟩
    · obtain ⟨hk, hQ⟩ := hok w a db hinv (hP.resolve_left hlive) hperform
      exact ⟨hk, fun a' h => by cases h; exact hQ⟩
  · intro r w hr
    cases r with
    | ok a => exact hr a rfl
    | error e => trivial

/-- A statement that reads, whatever it is answered. -/
structure Reading (o : DbStmt) : Prop where
  inner : Inner o
  idle : ∀ i a, Idle ⟨i, o, .ok a⟩
  same : ∀ i db a db', o.perform i db = some (.ok a, db') → db' = db

/-- What a program reads in its transaction. -/
theorem safe_read {o : DbStmt} {F : DbWorld env scope → Prop}
    {A : o.Result → DbWorld env scope → Prop}
    (ho : Reading o) (hF : Known i F) (hw : F w)
    (hA : ∀ (w : DbWorld env scope) a h, F w → o.perform i w.state = some (.ok a, w.state) →
      F ⟨w.state, h⟩ → A a ⟨w.state, h⟩) :
    (auditDiscipline env scope init).Safe i A (fun _ _ => True) (query o) w := by
  refine safe_query ho.inner hF hw fun w a db hinv hF' h => ?_
  obtain rfl := ho.same i w.state a db h
  exact ⟨keeps_same hinv rfl (ho.idle i a).commits,
    hA w a _ hF' h (hF.reads w _ (ho.idle i a) hF')⟩

/-- The last event is read. -/
theorem reading_lastEvent : Reading .lastEvent :=
  ⟨⟨by simp, by simp, by simp⟩, fun _ _ => ⟨rfl, rfl, fun _ => rfl⟩, fun _ _ _ _ h => by
    simp only [DbStmt.perform, Option.some.injEq, Prod.mk.injEq] at h
    exact h.2.symm⟩

/-- The last checkpoint is read. -/
theorem reading_lastCheckpoint : Reading .lastCheckpoint :=
  ⟨⟨by simp, by simp, by simp⟩, fun _ _ => ⟨rfl, rfl, fun _ => rfl⟩, fun _ _ _ _ h => by
    simp only [DbStmt.perform, Option.some.injEq, Prod.mk.injEq] at h
    exact h.2.symm⟩

/-- The count of the events is read. -/
theorem reading_countEvents (afterId : ℕ) : Reading (.countEvents afterId) :=
  ⟨⟨by simp, by simp, by simp⟩, fun _ _ => ⟨rfl, rfl, fun _ => rfl⟩, fun _ _ _ _ h => by
    simp only [DbStmt.perform, Option.some.injEq, Prod.mk.injEq] at h
    exact h.2.symm⟩

/-- The payment is read. -/
theorem reading_findPayment (id : String) : Reading (.findPayment id) :=
  ⟨⟨by simp, by simp, by simp⟩, fun _ _ => ⟨rfl, rfl, fun _ => rfl⟩, fun _ _ _ _ h => by
    simp only [DbStmt.perform] at h
    split at h
    · simp only [Option.some.injEq, Prod.mk.injEq] at h
      exact h.2.symm
    · cases h⟩

/-! ## Appending -/

/-- What program `i` sees of its own transaction. -/
theorem Working.pending {k : Work} {events : List AuditEvent} {checkpoints : List AuditCheckpoint}
    (h : Working i k events checkpoints w) :
    w.state.pending i = ⟨k.rows, events, checkpoints⟩ := by
  simp [Database.pending, h.active]

/-- `lockAuditChain`. -/
theorem lockAuditChain_safe {k : Work} {events : List AuditEvent} (hw : Between i k events w) :
    (auditDiscipline env scope init).Safe i (fun _ w => Clean i k events w) (fun _ _ => True)
      (lockAuditChain env) w := by
  unfold lockAuditChain
  split
  · trivial
  refine safe_query ⟨by simp, by simp, by simp⟩ known_between hw fun w a db hinv hF h => ?_
  obtain ⟨p, hp⟩ : ∃ p, w.state.transactions i = .active p := by
    rcases hF with ⟨h, -⟩ | ⟨_, h, -⟩
    · exact ⟨_, h.active⟩
    · exact ⟨_, h.active⟩
  simp only [DbStmt.perform, hp] at h
  split at h
  · cases h
  · rename_i hfree
    simp only [Option.some.injEq, Prod.mk.injEq] at h
    obtain ⟨-, rfl⟩ := h
    have hfree : w.state.chainLock = none ∨ w.state.chainLock = some i := by
      by_cases hn : w.state.chainLock = none
      · exact .inl hn
      · exact .inr (by by_contra hs; exact hfree ⟨hn, hs⟩)
    have hidle : Idle ⟨i, .lockAuditChain, .ok ()⟩ := ⟨rfl, rfl, fun _ => rfl⟩
    refine ⟨keeps_own hinv ?_ rfl rfl, ?_⟩
    · exact ⟨rfl, rfl, rfl, fun _ _ => rfl,
        ⟨p, hp, fun hne => absurd rfl hne, fun id hne => hinv.written i p id hp hne⟩,
        .inr ⟨rfl, hfree⟩, fun _ => .inl rfl, ⟨Nat.le_refl _, Nat.le_refl _⟩, .inl ⟨rfl, rfl⟩⟩
    · rcases hF with ⟨h, rfl⟩ | ⟨checkpoints, h, hrecent⟩
      · -- nothing was appended: the log is the one that is committed
        refine ⟨[], ⟨⟨h.active, h.found, fun id => ?_⟩, rfl, ?_⟩, ?_⟩
        · exact (hidle.openChanges i id w.history).trans (h.changes id)
        · simpa using hinv.sound
        · simpa using hinv.recent
      · refine ⟨checkpoints, ⟨⟨h.active, h.found, fun id => ?_⟩, rfl, h.sound⟩, hrecent⟩
        exact (hidle.openChanges i id w.history).trans (h.changes id)

/-- Creating the event that follows. -/
theorem createEvent_safe {k : Work} {events : List AuditEvent} {last : Option AuditEvent}
    {fields : EventFields}
    (hw : LockedWith i k events (fun es _ _ => last = Model.lastEvent (es ++ events)) w) :
    (auditDiscipline env scope init).Safe i
      (fun e w => LockedWith i k (events ++ [e]) (fun _ _ _ => True) w ∧ e.fields = fields)
      (fun _ _ => True)
      (query (.createEvent fields ((last.map (·.hash)).getD "GENESIS")
        (env.hashEvent ((last.map (·.hash)).getD "GENESIS") fields))) w := by
  refine safe_query ⟨by simp, by simp, by simp⟩ known_lockedWith hw ?_
  rintro w e db hinv ⟨checkpoints, hlocked, hlast⟩ h
  simp only [DbStmt.perform, hlocked.active] at h
  split at h
  · cases h
  simp only [Option.some.injEq, Prod.mk.injEq, Except.ok.injEq] at h
  obtain ⟨rfl, rfl⟩ := h
  have hidle : ∀ a, Idle ⟨i, .createEvent fields ((last.map (·.hash)).getD "GENESIS")
      (env.hashEvent ((last.map (·.hash)).getD "GENESIS") fields), .ok a⟩ :=
    fun _ => ⟨rfl, rfl, fun _ => rfl⟩
  refine ⟨keeps_own hinv ?_ rfl rfl, ?_, rfl⟩
  · exact ⟨rfl, rfl, rfl, fun j hj => Function.update_of_ne hj _ _,
      ⟨_, Function.update_self _ _ _, fun hne => absurd hlocked.lock hne,
        fun id hne => hinv.written i _ id hlocked.active hne⟩,
      .inl rfl, fun _ => .inl rfl, ⟨Nat.le_succ _, Nat.le_refl _⟩, .inr hlocked.lock⟩
  · refine ⟨checkpoints,
      ⟨⟨Function.update_self _ _ _, hlocked.found, fun id => ?_⟩, hlocked.lock, ?_⟩,
      trivial⟩
    · exact ((hidle _).openChanges i id w.history).trans (hlocked.changes id)
    · rw [← List.append_assoc]
      exact hlocked.sound.append rfl (by rw [hlast]) rfl

/-- `writeCheckpoint`, of the last event. -/
theorem writeCheckpoint_safe {k : Work} {events : List AuditEvent} {e : AuditEvent} {key : String}
    (hkey : env.anchorKey = some key)
    (hw : LockedWith i k events (fun es _ _ => (es ++ events).getLast? = some e) w) :
    (auditDiscipline env scope init).Safe i (fun _ w => Clean i k events w) (fun _ _ => True)
      (writeCheckpoint env e.id e.hash key) w := by
  refine safe_query ⟨by simp, by simp, by simp⟩ known_lockedWith hw ?_
  rintro w c db hinv ⟨checkpoints, hlocked, hlast⟩ h
  simp only [DbStmt.perform, hlocked.active, Option.some.injEq, Prod.mk.injEq,
    Except.ok.injEq] at h
  obtain ⟨rfl, rfl⟩ := h
  have hidle : ∀ a, Idle ⟨i, .createCheckpoint e.id e.hash (env.signAnchor e.id e.hash key),
    .ok a⟩ := fun _ => ⟨rfl, rfl, fun _ => rfl⟩
  refine ⟨keeps_own hinv ?_ rfl rfl, ?_⟩
  · exact ⟨rfl, rfl, rfl, fun j hj => Function.update_of_ne hj _ _,
      ⟨_, Function.update_self _ _ _, fun hne => absurd hlocked.lock hne,
        fun id hne => hinv.written i _ id hlocked.active hne⟩,
      .inl rfl, fun _ => .inl rfl, ⟨Nat.le_refl _, Nat.le_succ _⟩, .inr hlocked.lock⟩
  · obtain ⟨hsound, hrecent⟩ := hlocked.sound.checkpoint hkey hlast (c := ⟨w.state.nextCheckpointId,
      e.id, e.hash, env.signAnchor e.id e.hash key⟩) rfl rfl rfl rfl
    refine ⟨checkpoints ++ [_], ⟨⟨Function.update_self _ _ _, hlocked.found, fun id => ?_⟩,
      hlocked.lock, ?_⟩, ?_⟩
    · exact ((hidle _).openChanges i id w.history).trans (hlocked.changes id)
    · rw [List.append_assoc] at hsound
      exact hsound
    · rw [List.append_assoc] at hrecent
      exact hrecent

/-- `maybeCheckpoint`, of the event that was appended. -/
theorem maybeCheckpoint_safe {k : Work} {events : List AuditEvent} {e : AuditEvent}
    (hw : LockedWith i k (events ++ [e]) (fun _ _ _ => True) w) :
    (auditDiscipline env scope init).Safe i (fun _ w => Clean i k (events ++ [e]) w)
      (fun _ _ => True) (maybeCheckpoint env e) w := by
  unfold maybeCheckpoint
  split
  · rename_i hnone
    obtain ⟨checkpoints, h, -⟩ := hw
    exact ⟨checkpoints, h, fun hn => absurd hnone hn⟩
  rename_i key hkey
  refine safe_bind (safe_mono (safe_read (A := fun last w => LockedWith i k (events ++ [e])
    (fun _ cs checkpoints => last = Model.lastCheckpoint (cs ++ checkpoints)) w)
    reading_lastCheckpoint known_lockedWith hw ?_) ?_ fun _ _ h => h)
  · rintro w last h hF hperform ⟨checkpoints, hl, -⟩
    refine ⟨checkpoints, hl, ?_⟩
    simp only [DbStmt.perform, Option.some.injEq, Prod.mk.injEq, Except.ok.injEq,
      and_true] at hperform
    rw [← hperform, Database.visibleCheckpoints, show w.state.pending i = _ from hl.pending]
  intro last w hw
  refine safe_bind (safe_mono (safe_read (A := fun since w => LockedWith i k (events ++ [e])
    (fun es cs checkpoints => since = Model.countEvents (es ++ (events ++ [e]))
      (anchorId (cs ++ checkpoints))) w)
    (reading_countEvents _) known_lockedWith hw ?_) ?_ fun _ _ h => h)
  · rintro w since h hF hperform ⟨checkpoints, hl, hlast⟩
    refine ⟨checkpoints, hl, ?_⟩
    simp only [DbStmt.perform, Option.some.injEq, Prod.mk.injEq, Except.ok.injEq,
      and_true] at hperform
    subst hlast
    rw [← hperform, Database.visibleEvents, show w.state.pending i = _ from hl.pending]
    rfl
  rintro since w ⟨checkpoints, hl, hsince⟩
  split
  · rename_i hlt
    exact ⟨checkpoints, hl, fun _ => by rwa [← hsince]⟩
  · refine safe_bind (safe_mono (writeCheckpoint_safe hkey ⟨checkpoints, hl, ?_⟩) (fun _ _ h => h)
      fun _ _ h => h)
    simp only [← List.append_assoc, List.getLast?_concat]

/-- `appendEvent`. -/
theorem appendEvent_safe {k : Work} {events : List AuditEvent} {record : AuditRecord}
    (hw : Between i k events w) :
    (auditDiscipline env scope init).Safe i
      (fun e w => Clean i k (events ++ [e]) w ∧ e.fields =
        ⟨record.action, record.actor, record.paymentId, env.stringifyDetail record.detail⟩)
      (fun _ _ => True) (appendEvent env record) w := by
  refine safe_bind (safe_mono (lockAuditChain_safe hw) ?_ fun _ _ h => h)
  intro _ w hw
  refine safe_bind (safe_mono (safe_read (A := fun last w => LockedWith i k events
    (fun es _ _ => last = Model.lastEvent (es ++ events)) w) reading_lastEvent known_clean hw ?_) ?_
    fun _ _ h => h)
  · rintro w last h hF hperform ⟨checkpoints, hl, -⟩
    refine ⟨checkpoints, hl, ?_⟩
    simp only [DbStmt.perform, Option.some.injEq, Prod.mk.injEq, Except.ok.injEq,
      and_true] at hperform
    rw [← hperform, Database.visibleEvents, show w.state.pending i = _ from hl.pending]
  intro last w hw
  refine safe_bind (safe_mono (createEvent_safe hw) ?_ fun _ _ h => h)
  rintro e w ⟨hw, hfields⟩
  exact safe_bind (safe_mono (maybeCheckpoint_safe hw) (fun _ _ h => ⟨h, hfields⟩) fun _ _ h => h)

end SettlementOS.Analysis
