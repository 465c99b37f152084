import SettlementOS.Analysis.Transactions

/-!
# Calls that throw

Only a commit changes what is committed. A request commits at most as the last thing it does,
so one that throws has committed nothing: the rows, the events and the checkpoints are what
they were before each of its statements.
-/

set_option autoImplicit false

namespace SettlementOS.Analysis

open SettlementOS.Computation Model Program AuditLog Discipline

variable {env : AuditEnv} {scope : Option String} {i : ℕ} {α : Type} {w : DbWorld env scope}

/-! ## What is committed -/

/-- The rows, the events and the checkpoints are the same. -/
structure SameCommitted (db db' : Database) : Prop where
  payments : db'.payments = db.payments
  events : db'.events = db.events
  checkpoints : db'.checkpoints = db.checkpoints

/-- A statement that is performed changes what is committed only when it is the commit. -/
theorem same_of_perform {o : DbStmt} {db db' : Database} {r : Except Err o.Result}
    (h : o.perform i db = some (r, db')) (hc : commits ⟨i, o, r⟩ = false) :
    SameCommitted db db' := by
  cases o <;> simp only [DbStmt.perform] at h <;> (repeat' split at h) <;> cases h <;>
    first
      | exact ⟨rfl, rfl, rfl⟩
      | cases hc

/-- So does any statement. -/
theorem same_of_exec {o : DbStmt} {c : DbChoice} {db db' : Database} {r : Except Err o.Result}
    (h : o.exec i c db = some (r, db')) (hc : commits ⟨i, o, r⟩ = false) :
    SameCommitted db db' := by
  have herror (db' : Database) (e : Err)
      (h : some (Except.error (α := o.Result) e, db) = some (r, db')) :
      SameCommitted db db' := by
    simp only [Option.some.injEq, Prod.mk.injEq] at h
    exact h.2 ▸ ⟨rfl, rfl, rfl⟩
  by_cases hrollback : o = .rollback
  · subst hrollback
    exact same_of_perform (o := .rollback) h hc
  cases c with
  | some message =>
    by_cases hcommit : o = .commit
    · subst hcommit
      simp only [DbStmt.exec, Option.some.injEq, Prod.mk.injEq] at h
      exact h.2 ▸ ⟨rfl, rfl, rfl⟩
    · refine herror db' (.database message) (h ▸ ?_)
      cases o <;> first | rfl | exact absurd rfl hrollback | exact absurd rfl hcommit
  | none =>
    have hexec : DbStmt.exec i o none db =
        if db.isAborted i then some (.error (.database "Transaction already closed."), db)
        else o.perform i db := by
      cases o <;> first | rfl | exact absurd rfl hrollback
    rw [hexec] at h
    split at h
    · exact herror db' _ h
    · exact same_of_perform h hc

/-! ## Committing last -/

/-- Program `i` has committed a transaction. -/
def Committed (i : ℕ) (h : DbHistory) : Prop := ∃ e ∈ h, e.tid = i ∧ commits e = true

/-- A program has committed at this entry or before. -/
theorem committed_cons {e : Entry dbEffects} {h : DbHistory} :
    Committed i (e :: h) ↔ (e.tid = i ∧ commits e = true) ∨ Committed i h := by
  simp [Committed]

/-- The discipline of commits: only a program itself commits its transaction. -/
def commitDiscipline (env : AuditEnv) (scope : Option String) :
    Discipline (auditService env scope) where
  Inv _ := True
  Rely i w w' := Committed i w'.history ↔ Committed i w.history
  Start i w := ¬ Committed i w.history
  refl _ _ := Iff.rfl
  trans _ _ _ _ h h' := h'.trans h
  start_stable _ _ _ hs hr := fun h => hs (hr.mp h)

/-- What a program has not committed the others do not commit. -/
theorem stable_uncommitted :
    (commitDiscipline env scope).Stable i fun w => ¬ Committed i w.history :=
  fun _ _ h _ hr hc => h (hr.mp hc)

/-- Any statement is within the discipline, and one that does not commit has not committed. -/
theorem performs_uncommitted (o : DbStmt) :
    (commitDiscipline env scope).Performs i o (fun w => ¬ Committed i w.history)
      fun r w => commits ⟨i, o, r⟩ = false → ¬ Committed i w.history := by
  intro w _ hw c r w' he
  obtain ⟨db, -, rfl⟩ := Service.World.exec_eq_some.mp he
  refine ⟨⟨trivial, fun j hj => ?_⟩, fun hc => ?_⟩
  · change Committed j (_ :: w.history) ↔ _
    simp [committed_cons, Ne.symm hj]
  · rw [committed_cons, hc]
    simpa using hw

/-- A program that does not commit. -/
theorem safe_uncommitted {p : Query α} (hp : p.Uses (· ≠ DbStmt.commit))
    (hw : ¬ Committed i w.history) :
    (commitDiscipline env scope).Safe i (fun _ w => ¬ Committed i w.history)
      (fun _ w => ¬ Committed i w.history) p w := by
  refine safe_of_uses stable_uncommitted (fun o ho w hi hP c r w' he => ?_) hp hw
  obtain ⟨hk, hR⟩ := performs_uncommitted o w hi hP c r w' he
  refine ⟨hk, hR ?_⟩
  cases o <;> cases r <;> first | rfl | exact absurd rfl ho

/-- One statement that is not the commit. -/
theorem uses_query {o : DbStmt} (ho : o ≠ .commit) : (query o).Uses (· ≠ DbStmt.commit) :=
  ⟨ho, fun _ => Prog.uses_ofExcept _⟩

/-- A transaction that throws has not committed. -/
theorem transaction_uncommitted {fn : Query α} (hfn : fn.Uses (· ≠ DbStmt.commit))
    (hw : ¬ Committed i w.history) :
    (commitDiscipline env scope).Safe i (fun _ _ => True) (fun _ w => ¬ Committed i w.history)
      (transaction fn) w := by
  have habandon (e : Err) : (abandon e : Query α).Uses (· ≠ DbStmt.commit) :=
    Prog.Uses.bind (uses_query (by simp)) fun _ => trivial
  refine safe_bind (safe_mono (safe_uncommitted (uses_query (by simp)) hw) ?_ fun _ _ h => h)
  intro _ w hw
  refine safe_handle (safe_mono (Q := fun _ _ => True) (X := fun _ w => ¬ Committed i w.history)
    (safe_bind ?_) (fun _ _ _ => trivial)
    fun e w hw =>
      safe_mono (safe_uncommitted (habandon e) hw) (fun _ _ _ => trivial) fun _ _ h => h)
  refine safe_mono (safe_uncommitted hfn hw) (fun a w hw => ?_) fun _ _ h => h
  refine safe_bind
    (safe_perform stable_uncommitted (performs_uncommitted DbStmt.commit) hw fun r w hr => ?_)
  cases r with
  | ok _ => trivial
  | error e => exact hr rfl

/-! ## What the requests perform -/

/-- To lock the chain is not to commit. -/
theorem uses_lockAuditChain : (lockAuditChain env).Uses (· ≠ DbStmt.commit) := by
  unfold lockAuditChain
  split
  · trivial
  · exact uses_query (by simp)

/-- Nor is to write a checkpoint. -/
theorem uses_maybeCheckpoint (e : AuditEvent) :
    (maybeCheckpoint env e).Uses (· ≠ DbStmt.commit) := by
  unfold maybeCheckpoint
  split
  · trivial
  refine Prog.Uses.bind (uses_query (by simp)) fun last => ?_
  refine Prog.Uses.bind (uses_query (by simp)) fun since => ?_
  split
  · trivial
  · exact Prog.Uses.bind (uses_query (by simp)) fun _ => trivial

/-- Nor to append an event. -/
theorem uses_appendEvent (record : AuditRecord) :
    (appendEvent env record).Uses (· ≠ DbStmt.commit) := by
  refine Prog.Uses.bind uses_lockAuditChain fun _ => ?_
  refine Prog.Uses.bind (uses_query (by simp)) fun last => ?_
  refine Prog.Uses.bind (uses_query (by simp)) fun e => ?_
  exact Prog.Uses.bind (uses_maybeCheckpoint e) fun _ => trivial

/-- Nor to append several. -/
theorem uses_appendEvents (records : List AuditRecord) :
    (appendEvents env records).Uses (· ≠ DbStmt.commit) := by
  induction records with
  | nil => trivial
  | cons record records ih => exact Prog.Uses.bind (uses_appendEvent record) fun _ => ih

/-- Nor to write a row. -/
theorem uses_swap (id : String) (status next : PaymentStatus) (opts : TransitionOpts) :
    (swap env id status next opts).Uses (· ≠ DbStmt.commit) := by
  refine Prog.Uses.bind (uses_query (by simp)) fun count => ?_
  split
  · trivial
  refine Prog.Uses.bind (uses_query (by simp)) fun updated => ?_
  exact Prog.Uses.bind (uses_appendEvent _) fun _ => trivial

/-- Nor to verify the chain. -/
theorem uses_verifyAuditChain : (verifyAuditChain env).Uses (· ≠ DbStmt.commit) := by
  unfold verifyAuditChain AuditEnv.verifyAuditChain
  refine Prog.Uses.bind (uses_query (by simp)) fun events => ?_
  split
  · trivial
  refine Prog.Uses.bind (uses_query (by simp)) fun last => ?_
  split
  · trivial
  split
  · trivial
  split
  · trivial
  refine Prog.Uses.bind (uses_query (by simp)) fun found => ?_
  split
  · trivial
  · split <;> trivial

/-- `createCheckpoint` throws without having committed. -/
theorem createCheckpoint_uncommitted (hw : ¬ Committed i w.history) :
    (commitDiscipline env scope).Safe i (fun _ _ => True) (fun _ w => ¬ Committed i w.history)
      (createCheckpoint env) w := by
  unfold createCheckpoint
  split
  · exact hw
  refine transaction_uncommitted (Prog.Uses.bind uses_lockAuditChain fun _ => ?_) hw
  refine Prog.Uses.bind (uses_query (by simp)) fun last => ?_
  split
  · trivial
  refine Prog.Uses.bind (uses_query (by simp)) fun newest => ?_
  split
  · exact uses_query (by simp)
  · split
    · trivial
    · exact uses_query (by simp)

/-- A request that throws has committed nothing. -/
theorem commit_holds (init : String → Option Payment) :
    (commitDiscipline env scope).Holds (Database.created init) (fun _ _ _ _ => True)
      fun _ i _ w => ¬ Committed i w.history where
  inv := trivial
  start _ := by rintro ⟨e, he, -⟩; cases he
  outside _ _ _ _ _ := ⟨trivial, fun _ => Iff.rfl⟩
  ret_stable _ _ _ := Stable.const True
  throw_stable _ _ _ := stable_uncommitted
  program := by
    rintro ⟨r, hr⟩ i w - hstart
    cases r with
    | transition id status next opts =>
      refine safe_bind
        (safe_mono (Q := fun _ _ => True) (X := fun _ w => ¬ Committed i w.history) ?_
        (fun _ _ _ => trivial) fun _ _ h => h)
      unfold transitionStatus
      split
      · exact transaction_uncommitted (uses_swap id status next opts) hstart
      · exact hstart
    | audit records =>
      exact safe_bind (safe_mono (transaction_uncommitted (uses_appendEvents records) hstart)
        (fun _ _ _ => trivial) fun _ _ h => h)
    | checkpoint =>
      exact safe_bind (safe_mono (createCheckpoint_uncommitted hstart)
        (fun _ _ _ => trivial) fun _ _ h => h)
    | verify =>
      exact safe_bind (safe_mono (safe_uncommitted uses_verifyAuditChain hstart)
        (fun _ _ _ => trivial) fun _ _ h => h)

end SettlementOS.Analysis
