import SettlementOS.Analysis.Transactions

/-!
# Statements of a transaction

What each statement does to the database as far as the invariant and the other programs are
concerned. Three lemmas cover them all: a statement that changes only its own transaction and
takes locks that are free (`keeps_own`), the end of a transaction that leaves nothing behind
(`keeps_rollback`), and the commit (`keeps_commit`).
-/

set_option autoImplicit false

namespace SettlementOS.Analysis

open SettlementOS.Computation Model Program AuditLog Discipline

variable {env : AuditEnv} {scope : Option String} {init : String → Option Payment} {i : ℕ}

/-! ## What statements do -/

/-- A statement that fails changes nothing. -/
theorem perform_error {o : DbStmt} {db db' : Database} {e : Err}
    (h : o.perform i db = some (.error e, db')) : db' = db := by
  cases o <;> simp only [DbStmt.perform] at h <;> (repeat' split at h) <;> simp_all

/-- The statements between the beginning and the end of a transaction. -/
def Inner (o : DbStmt) : Prop := o ≠ .begin ∧ o ≠ .commit ∧ o ≠ .rollback

/-- A statement inside a transaction fails and changes nothing, or it is performed in one that
was not aborted. -/
theorem exec_inner {o : DbStmt} (ho : Inner o) {c : DbChoice} {db db' : Database}
    {r : Except Err o.Result} (h : o.exec i c db = some (r, db')) :
    (∃ e, r = .error e ∧ db' = db) ∨
      (db.transactions i ≠ .aborted ∧ ∃ a, r = .ok a ∧ o.perform i db = some (.ok a, db')) := by
  obtain ⟨-, hc, hr⟩ := ho
  cases c with
  | some message =>
    left
    cases o <;> first | exact absurd rfl hc | exact absurd rfl hr | skip
    all_goals
      simp only [DbStmt.exec, Option.some.injEq, Prod.mk.injEq] at h
      exact ⟨_, h.1.symm, h.2.symm⟩
  | none =>
    have hexec : DbStmt.exec i o none db =
        if db.isAborted i then some (.error (.database "Transaction already closed."), db)
        else o.perform i db := by
      cases o <;> first | rfl | exact absurd rfl hr
    rw [hexec] at h
    by_cases ha : db.isAborted i = true
    · rw [if_pos ha, Option.some.injEq, Prod.mk.injEq] at h
      exact .inl ⟨_, h.1.symm, h.2.symm⟩
    · rw [if_neg ha] at h
      have hne : db.transactions i ≠ .aborted := fun he => ha (by simp [Database.isAborted, he])
      cases r with
      | error e => exact .inl ⟨e, rfl, perform_error h⟩
      | ok a => exact .inr ⟨hne, a, rfl, h⟩

/-! ## Keeping the discipline -/

/-- An entry that commits nothing leaves the committed changes. -/
theorem DbInv.entry {db : Database} {h : DbHistory} (hinv : DbInv env scope init db h)
    {e : Entry dbEffects} (he : commits e = false) : DbInv env scope init db (e :: h) where
  sound := hinv.sound
  recent := hinv.recent
  held := hinv.held
  appended := hinv.appended
  written := hinv.written
  path id hid row₀ h₀ := by
    rw [committedChanges_cons he]
    exact hinv.path id hid row₀ h₀
  recorded id hid := by
    rw [committedChanges_cons he]
    exact hinv.recorded id hid

/-- What the statement of program `i` may change, short of ending its transaction: its own
transaction, which goes on, locks that were free, and the counters under the advisory lock. -/
structure OwnStep (i : ℕ) (db db' : Database) : Prop where
  payments : db'.payments = db.payments
  events : db'.events = db.events
  checkpoints : db'.checkpoints = db.checkpoints
  others : ∀ j, j ≠ i → db'.transactions j = db.transactions j
  own : ∃ p, db'.transactions i = .active p ∧
    (db'.chainLock ≠ some i → p.events = [] ∧ p.checkpoints = []) ∧
    ∀ id, p.payments id ≠ none → db'.rowLock id = some i
  chainLock : db'.chainLock = db.chainLock ∨
    (db'.chainLock = some i ∧ (db.chainLock = none ∨ db.chainLock = some i))
  rowLock : ∀ id, db'.rowLock id = db.rowLock id ∨
    (db'.rowLock id = some i ∧ (db.rowLock id = none ∨ db.rowLock id = some i))
  counters : db.nextEventId ≤ db'.nextEventId ∧ db.nextCheckpointId ≤ db'.nextCheckpointId
  underLock : (db'.nextEventId = db.nextEventId ∧ db'.nextCheckpointId = db.nextCheckpointId) ∨
    db.chainLock = some i

/-- Later ids are fresh as well. -/
theorem SoundLog.mono {events : List AuditEvent} {checkpoints : List AuditCheckpoint}
    {n m n' m' : ℕ}
    (h : SoundLog env events checkpoints n m) (hn : n ≤ n') (hm : m ≤ m') :
    SoundLog env events checkpoints n' m' where
  chain := h.chain
  fresh e he := Nat.lt_of_lt_of_le (h.fresh e he) hn
  positive := Nat.lt_of_lt_of_le h.positive hn
  ordered := h.ordered
  freshCheckpoint c hc := Nat.lt_of_lt_of_le (h.freshCheckpoint c hc) hm
  anchored := h.anchored

/-- Another program's lock on the chain is as it was. -/
theorem OwnStep.lock_other {db db' : Database} (hs : OwnStep i db db') {j : ℕ} (hj : j ≠ i) :
    db'.chainLock = some j ↔ db.chainLock = some j := by
  rcases hs.chainLock with h | ⟨h, h' | h'⟩
  · rw [h]
  · simp [h, h', Ne.symm hj]
  · simp [h, h', Ne.symm hj]

/-- Its locks on the rows are as they were. -/
theorem OwnStep.row_other {db db' : Database} (hs : OwnStep i db db') {j : ℕ} (hj : j ≠ i)
    (id : String) : db'.rowLock id = some j ↔ db.rowLock id = some j := by
  rcases hs.rowLock id with h | ⟨h, h' | h'⟩
  · rw [h]
  · simp [h, h', Ne.symm hj]
  · simp [h, h', Ne.symm hj]

/-- A statement that goes on with its own transaction. -/
theorem keeps_own {w : DbWorld env scope} (hinv : DbInv env scope init w.state w.history)
    {db' : Database} (hs : OwnStep i w.state db') {e : Entry dbEffects} (he : e.tid = i)
    (hc : commits e = false) :
    (auditDiscipline env scope init).Keeps i w ⟨db', e :: w.history⟩ := by
  obtain ⟨p, hp, happended, hwritten⟩ := hs.own
  refine ⟨DbInv.entry ⟨?_, ?_, ?_, ?_, ?_, ?_, ?_⟩ hc, fun j hj => ⟨?_, ?_, ?_, ?_, ?_⟩⟩
  · rw [hs.events, hs.checkpoints]
    exact hinv.sound.mono hs.counters.1 hs.counters.2
  · rw [hs.events, hs.checkpoints]
    exact hinv.recent
  · intro j hl
    by_cases hj : j = i
    · exact ⟨p, hj ▸ hp⟩
    · rw [hs.others j hj]
      exact hinv.held j ((hs.lock_other hj).mp hl)
  · intro j q hq hl
    by_cases hj : j = i
    · subst hj
      rw [hp] at hq
      cases hq
      exact happended hl
    · rw [hs.others j hj] at hq
      exact hinv.appended j q hq fun h => hl ((hs.lock_other hj).mpr h)
  · intro j q id hq hne
    by_cases hj : j = i
    · subst hj
      rw [hp] at hq
      cases hq
      exact hwritten id hne
    · rw [hs.others j hj] at hq
      exact (hs.row_other hj id).mpr (hinv.written j q id hq hne)
  · rw [hs.payments]
    exact hinv.path
  · rw [hs.events]
    exact hinv.recorded
  · exact .inl (hs.others j hj)
  · intro hl _
    refine ⟨(hs.lock_other hj).mpr hl, hs.events, hs.checkpoints, ?_⟩
    rcases hs.underLock with h | h
    · exact h
    · rw [hl] at h
      exact absurd (Option.some.inj h) hj
  · intro id hl _
    exact ⟨(hs.row_other hj id).mpr hl, by rw [hs.payments]⟩
  · exact fun id => openChanges_cons_ne (by rw [he]; exact Ne.symm hj)
  · exact hs.events.symm ▸ List.prefix_refl _

/-- A statement that changes nothing. -/
theorem keeps_same {w : DbWorld env scope} (hinv : DbInv env scope init w.state w.history)
    {e : Entry dbEffects} (he : e.tid = i) (hc : commits e = false) :
    (auditDiscipline env scope init).Keeps i w ⟨w.state, e :: w.history⟩ :=
  ⟨hinv.entry hc, fun j hj => { DbRely.refl j w.state w.history with
    changes := fun _ => openChanges_cons_ne (by rw [he]; exact Ne.symm hj) }⟩

/-! ## The end of a transaction -/

section Release

variable {db : Database} {t : Transaction}

/-- Giving back the locks of one leaves another one's on the chain. -/
theorem release_chainLock_other {j : ℕ} (hj : j ≠ i) :
    (db.release i t).chainLock = some j ↔ db.chainLock = some j := by
  simp only [Database.release]
  split
  · rename_i h
    simp [h, Ne.symm hj]
  · rfl

/-- So it does with those on the rows. -/
theorem release_rowLock_other {j : ℕ} (hj : j ≠ i) (id : String) :
    (db.release i t).rowLock id = some j ↔ db.rowLock id = some j := by
  simp only [Database.release]
  split
  · rename_i h
    simp [h, Ne.symm hj]
  · rfl

/-- And the other's transaction is as it was. -/
theorem release_transactions_other {j : ℕ} (hj : j ≠ i) :
    (db.release i t).transactions j = db.transactions j := Function.update_of_ne hj _ _

/-- Afterwards the one has no lock on the chain. -/
theorem release_chainLock_own : (db.release i t).chainLock ≠ some i := by
  simp only [Database.release]
  split
  · simp
  · assumption

/-- And its transaction is ended. -/
theorem release_transactions_own : (db.release i t).transactions i = t := Function.update_self _ _ _

/-- The end of a transaction that leaves nothing behind keeps the invariant. -/
theorem DbInv.release {h : DbHistory} (hinv : DbInv env scope init db h)
    (ht : ∀ p, t ≠ .active p) : DbInv env scope init (db.release i t) h where
  sound := hinv.sound
  recent := hinv.recent
  held j hl := by
    by_cases hj : j = i
    · exact absurd (hj ▸ hl) release_chainLock_own
    · rw [release_transactions_other hj]
      exact hinv.held j ((release_chainLock_other hj).mp hl)
  appended j p hp hl := by
    by_cases hj : j = i
    · subst hj
      rw [release_transactions_own] at hp
      exact absurd hp (ht p)
    · rw [release_transactions_other hj] at hp
      exact hinv.appended j p hp fun h => hl ((release_chainLock_other hj).mpr h)
  written j p id hp hne := by
    by_cases hj : j = i
    · subst hj
      rw [release_transactions_own] at hp
      exact absurd hp (ht p)
    · rw [release_transactions_other hj] at hp
      exact (release_rowLock_other hj id).mpr (hinv.written j p id hp hne)
  path := hinv.path
  recorded := hinv.recorded

/-- It is within the rely of every other program. -/
theorem rely_release {h : DbHistory} {j : ℕ} (hj : j ≠ i) :
    DbRely j db (db.release i t) h h where
  transaction := .inl (release_transactions_other hj)
  chain hl _ := ⟨(release_chainLock_other hj).mpr hl, rfl, rfl, rfl, rfl⟩
  row id hl _ := ⟨(release_rowLock_other hj id).mpr hl, rfl⟩
  changes _ := rfl
  events := List.prefix_refl _

end Release

/-- Ending a transaction without committing. -/
theorem keeps_rollback {w : DbWorld env scope} (hinv : DbInv env scope init w.state w.history)
    {e : Entry dbEffects} (he : e.tid = i) (hc : commits e = false) :
    (auditDiscipline env scope init).Keeps i w ⟨w.state.release i .idle, e :: w.history⟩ := by
  refine ⟨(hinv.release fun p h => by cases h).entry hc, fun j hj => ?_⟩
  exact { rely_release (h := w.history) hj with
    changes := fun _ => openChanges_cons_ne (by rw [he]; exact Ne.symm hj) }

/-- The server aborts a transaction. -/
theorem rely_abort {db db' : Database} {h : DbHistory} {a : Abort}
    (ha : a.exec db = some db') (j : ℕ)
    (hinv : DbInv env scope init db h) :
    DbInv env scope init db' h ∧ DbRely j db db' h h := by
  obtain ⟨i⟩ := a
  simp only [Abort.exec] at ha
  split at ha
  · rename_i p hp
    simp only [Option.some.injEq] at ha
    subst ha
    refine ⟨hinv.release (fun p h => by cases h), ?_⟩
    by_cases hj : j = i
    · subst hj
      refine ⟨.inr ⟨release_transactions_own, p, hp⟩, fun _ hs => ?_, fun _ _ hs => ?_,
        fun _ => rfl,
        List.prefix_refl _⟩
      · rw [release_transactions_own, hp] at hs
        cases hs
      · rw [release_transactions_own, hp] at hs
        cases hs
    · exact rely_release hj
  · cases ha

/-! ## The commit -/

/-- What a transaction has to have done to be committed. -/
structure Committable (env : AuditEnv) (scope : Option String) (i : ℕ) (p : Pending) (db : Database)
    (h : DbHistory) : Prop where
  log : (p.events = [] ∧ p.checkpoints = []) ∨ (db.chainLock = some i ∧
    SoundLog env (db.events ++ p.events) (db.checkpoints ++ p.checkpoints) db.nextEventId
      db.nextCheckpointId ∧
    Recent env (db.events ++ p.events) (db.checkpoints ++ p.checkpoints))
  row : ∀ id, scope = some id → match p.payments id with
    | none => openChanges i id h = []
    | some row' => ∃ row, db.rowLock id = some i ∧ db.payments id = some row ∧
        Path row.status (openChanges i id h) row'.status
  recorded : ∀ id, scope = some id →
    List.Forall₂ Carries (p.events.filter (statusEvent id)) (openChanges i id h)

/-- Committing what the transaction has done. -/
theorem keeps_commit {w : DbWorld env scope} (hinv : DbInv env scope init w.state w.history)
    {p : Pending} (hp : w.state.transactions i = .active p)
    (hc : Committable env scope i p w.state w.history) :
    (auditDiscipline env scope init).Keeps i w
      ⟨w.state.commit i p, ⟨i, .commit, .ok ()⟩ :: w.history⟩ := by
  have hlog : SoundLog env (w.state.events ++ p.events) (w.state.checkpoints ++ p.checkpoints)
      w.state.nextEventId w.state.nextCheckpointId ∧
      Recent env (w.state.events ++ p.events) (w.state.checkpoints ++ p.checkpoints) := by
    rcases hc.log with ⟨he, hk⟩ | ⟨-, h⟩
    · rw [he, hk, List.append_nil, List.append_nil]
      exact ⟨hinv.sound, hinv.recent⟩
    · exact h
  have hchanges : ∀ id, committedChanges id (⟨i, .commit, .ok ()⟩ :: w.history) =
      committedChanges id w.history ++ openChanges i id w.history := fun id => if_pos rfl
  refine ⟨?_, fun j hj => ?_⟩
  · -- the invariant of what is now committed, apart from the locks, which `release` keeps
    refine ⟨hlog.1, hlog.2, ?_, ?_, ?_, ?_, ?_⟩
    · exact (hinv.release (i := i) (t := .idle) fun p h => by cases h).held
    · exact (hinv.release (i := i) (t := .idle) fun p h => by cases h).appended
    · exact (hinv.release (i := i) (t := .idle) fun p h => by cases h).written
    · intro id hid row₀ h₀
      obtain ⟨row, hrow, hpath⟩ := hinv.path id hid row₀ h₀
      have hr := hc.row id hid
      rw [hchanges]
      simp only [Database.commit, Database.release]
      cases hq : p.payments id with
      | none =>
        rw [hq] at hr
        refine ⟨row, hrow, ?_⟩
        rw [hr, List.append_nil]
        exact hpath
      | some row' =>
        rw [hq] at hr
        obtain ⟨row₁, -, hrow₁, hpath₁⟩ := hr
        rw [hrow, Option.some.injEq] at hrow₁
        subst hrow₁
        exact ⟨row', rfl, hpath.append hpath₁⟩
    · intro id hid
      rw [hchanges]
      simp only [Database.commit, Database.release, List.filter_append]
      exact List.rel_append (hinv.recorded id hid) (hc.recorded id hid)
  · refine ⟨.inl (release_transactions_other hj), fun hl _ => ?_, fun id hl _ => ?_,
      fun id => ?_, ?_⟩
    · -- whoever holds the advisory lock has everything that was appended
      obtain ⟨he, hk⟩ : p.events = [] ∧ p.checkpoints = [] :=
        hinv.appended i p hp fun h => hj (Option.some.inj (hl.symm.trans h))
      refine ⟨(release_chainLock_other hj).mpr hl, ?_, ?_, rfl, rfl⟩
      · simp [Database.commit, Database.release, he]
      · simp [Database.commit, Database.release, hk]
    · refine ⟨(release_rowLock_other hj id).mpr hl, ?_⟩
      have hnone : p.payments id = none := by
        by_contra hne
        exact hj (Option.some.inj (hl.symm.trans (hinv.written i p id hp hne)))
      simp [Database.commit, Database.release, hnone]
    · exact openChanges_cons_ne (Ne.symm hj)
    · exact List.prefix_append _ _

end SettlementOS.Analysis
