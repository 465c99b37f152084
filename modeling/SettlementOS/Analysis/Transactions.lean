import SettlementOS.Analysis.AuditChain
import SettlementOS.Analysis.Details
import SettlementOS.Computation.Discipline

/-!
# What is committed, and what transactions rely on

`DbInv` holds after every statement: what is committed is a sound log, the statuses of the
payment in scope have followed its committed changes, and each of those has its event. Only
the transaction that holds the advisory lock has events or checkpoints to commit, and only the
one that holds a row's lock has a row to commit. `DbRely i` is what follows for program `i`:
what it has locked nobody else changes, unless the server aborts its transaction.
-/

set_option autoImplicit false

namespace SettlementOS.Analysis

open SettlementOS.Computation Model Program AuditLog

/-! ## Sound logs -/

/-- The event the newest checkpoint anchors, 0 when there is none. -/
def anchorId (checkpoints : List AuditCheckpoint) : ℕ :=
  ((lastCheckpoint checkpoints).map (·.lastEventId)).getD 0

/-- The checkpoint is of one of the events, rightly signed. -/
def Anchored (env : AuditEnv) (events : List AuditEvent) (c : AuditCheckpoint) : Prop :=
  ∃ key e, env.anchorKey = some key ∧ e ∈ events ∧ e.id = c.lastEventId ∧ e.hash = c.chainHash ∧
    c.signature = env.signAnchor c.lastEventId c.chainHash key

/-- A log with its checkpoints, and the ids that come next. -/
structure SoundLog (env : AuditEnv) (events : List AuditEvent) (checkpoints : List AuditCheckpoint)
    (nextEventId nextCheckpointId : ℕ) : Prop where
  chain : Chain env events
  fresh : ∀ e ∈ events, e.id < nextEventId
  positive : 0 < nextEventId
  ordered : checkpoints.Pairwise fun c c' => c.id < c'.id
  freshCheckpoint : ∀ c ∈ checkpoints, c.id < nextCheckpointId
  anchored : ∀ c ∈ checkpoints, Anchored env events c

/-- With a key, fewer events than the interval lie past the newest checkpoint. -/
def Recent (env : AuditEnv) (events : List AuditEvent)
    (checkpoints : List AuditCheckpoint) : Prop :=
  env.anchorKey ≠ none → countEvents events (anchorId checkpoints) < env.checkpointInterval

section Logs

variable {env : AuditEnv} {events : List AuditEvent} {checkpoints : List AuditCheckpoint} {n m : ℕ}

/-- A log without events is sound. -/
theorem soundLog_nil : SoundLog env [] [] 1 1 :=
  ⟨chain_nil, by simp, by decide, .nil, by simp, by simp⟩

/-- No event lies past no checkpoint. -/
theorem recent_nil : Recent env [] [] := fun _ => env.checkpointInterval_pos

/-- The last event of a sound log is at its end. -/
theorem SoundLog.lastEvent (h : SoundLog env events checkpoints n m) :
    lastEvent events = events.getLast? := lastEvent_of_ordered h.chain.ordered

/-- The newest checkpoint is the last one. -/
theorem lastCheckpoint_of_ordered (h : checkpoints.Pairwise fun c c' => c.id < c'.id) :
    lastCheckpoint checkpoints = checkpoints.getLast? := by
  rw [lastCheckpoint, List.Pairwise.insertionSort_eq (h.imp Nat.le_of_lt)]

/-- Appending the event that follows. -/
theorem SoundLog.append (h : SoundLog env events checkpoints n m) {e : AuditEvent} (hid : e.id = n)
    (hprev : e.prevHash = ((Model.lastEvent events).map (·.hash)).getD "GENESIS")
    (hhash : e.hash = env.hashEvent e.prevHash e.fields) :
    SoundLog env (events ++ [e]) checkpoints (n + 1) m where
  chain := h.chain.append (fun e' he' => hid ▸ h.fresh e' he') (hid ▸ h.positive)
    (by rw [hprev, h.lastEvent, tipHash]) hhash
  fresh e' he' := by
    rcases List.mem_append.mp he' with h' | h'
    · exact Nat.lt_succ_of_lt (h.fresh e' h')
    · rw [List.mem_singleton.mp h', hid]
      exact Nat.lt_succ_self n
  positive := Nat.succ_pos n
  ordered := h.ordered
  freshCheckpoint := h.freshCheckpoint
  anchored c hc := by
    obtain ⟨key, e', hk, he', hrest⟩ := h.anchored c hc
    exact ⟨key, e', hk, List.mem_append_left _ he', hrest⟩

/-- Nothing lies past the last event. -/
theorem countEvents_last (h : Ordered events) {e : AuditEvent} (he : events.getLast? = some e) :
    countEvents events e.id = 0 := by
  obtain ⟨l, rfl⟩ := List.getLast?_eq_some_iff.mp he
  obtain ⟨-, -, hlt⟩ := List.pairwise_append.mp h
  refine List.countP_eq_zero.mpr fun e' he' => ?_
  rcases List.mem_append.mp he' with h' | h'
  · have := hlt e' h' e List.mem_cons_self
    simp only [decide_eq_true_eq]
    omega
  · rw [List.mem_singleton.mp h']
    simp

/-- Writing a checkpoint of the last event. -/
theorem SoundLog.checkpoint (h : SoundLog env events checkpoints n m) {e : AuditEvent}
    {c : AuditCheckpoint} {key : String} (hkey : env.anchorKey = some key)
    (he : events.getLast? = some e) (hid : c.id = m) (hlast : c.lastEventId = e.id)
    (hhash : c.chainHash = e.hash)
    (hsign : c.signature = env.signAnchor c.lastEventId c.chainHash key) :
    SoundLog env events (checkpoints ++ [c]) n (m + 1) ∧
    Recent env events (checkpoints ++ [c]) := by
  have hordered : (checkpoints ++ [c]).Pairwise fun c c' => c.id < c'.id :=
    List.pairwise_append.mpr ⟨h.ordered, List.pairwise_singleton _ _, fun c' hc' x hx => by
      rw [List.mem_singleton.mp hx, hid]
      exact h.freshCheckpoint c' hc'⟩
  refine ⟨⟨h.chain, h.fresh, h.positive, hordered, fun c' hc' => ?_, fun c' hc' => ?_⟩, fun _ => ?_⟩
  · rcases List.mem_append.mp hc' with h' | h'
    · exact Nat.lt_succ_of_lt (h.freshCheckpoint c' h')
    · rw [List.mem_singleton.mp h', hid]
      exact Nat.lt_succ_self m
  · rcases List.mem_append.mp hc' with h' | h'
    · exact h.anchored c' h'
    · rw [List.mem_singleton.mp h']
      exact ⟨key, e, hkey, List.mem_of_getLast? he, hlast.symm, hhash.symm, hsign⟩
  · rw [anchorId, lastCheckpoint_of_ordered hordered, List.getLast?_append]
    simp only [List.getLast?_singleton, Option.some_or, Option.map_some, Option.getD_some, hlast]
    rw [countEvents_last h.chain.ordered he]
    exact env.checkpointInterval_pos

end Logs

/-! ## Changes and their events -/

/-- A status and the one that follows it. -/
abbrev Change := PaymentStatus × PaymentStatus

/-- The changes lead from the one status to the other, each of them legal. -/
def Path : PaymentStatus → List Change → PaymentStatus → Prop
  | s, [], t => s = t
  | s, c :: cs, t => c.1 = s ∧ canTransition c.1 c.2 = true ∧ Path c.2 cs t

/-- Two paths one after the other are a path. -/
theorem Path.append {s t u : PaymentStatus} {cs cs' : List Change} (h : Path s cs t)
    (h' : Path t cs' u) : Path s (cs ++ cs') u := by
  induction cs generalizing s with
  | nil => exact h ▸ h'
  | cons c cs ih => exact ⟨h.1, h.2.1, ih h.2.2⟩

/-- The event is about the payment, and its detail opens with a `from`. -/
def statusEvent (id : String) (e : AuditEvent) : Bool :=
  e.paymentId == some id && "\x7b\"from\"".toList.isPrefixOf e.detail.toList

/-- The event's detail opens with the two statuses. -/
def Carries (e : AuditEvent) (c : Change) : Prop := (opening c.1 c.2).toList <+: e.detail.toList

/-- An event that carries two statuses opens with a `from`. -/
theorem Carries.opens {e : AuditEvent} {c : Change} (h : Carries e c) :
    "\x7b\"from\"".toList.isPrefixOf e.detail.toList = true := by
  refine List.isPrefixOf_iff_prefix.mpr (List.IsPrefix.trans ?_ h)
  exact ⟨(":\"" ++ c.1.name ++ "\",\"to\":\"" ++ c.2.name ++ "\"").toList, by simp [opening]⟩

/-! ## Readings of the history -/

/-- The history of a run on the database. -/
abbrev DbHistory := List (Entry dbEffects)

/-- A transaction was begun. -/
def begins : Entry dbEffects → Bool
  | ⟨_, .begin, .ok _⟩ => true
  | _ => false

/-- A transaction was committed. -/
def commits : Entry dbEffects → Bool
  | ⟨_, .commit, .ok _⟩ => true
  | _ => false

/-- The payment's row was found in the status asked for, and written. -/
def changes (id : String) : Entry dbEffects → Option Change
  | ⟨_, .updateMany id' status data, .ok 1⟩ =>
    if id' = id then data.status.map fun next => (status, next) else none
  | _ => none

/-- The changes program `i` has made to the payment in its transaction. -/
def openChanges (i : ℕ) (id : String) : DbHistory → List Change
  | [] => []
  | e :: h =>
    if e.tid = i then if begins e then [] else openChanges i id h ++ (changes id e).toList
    else openChanges i id h

/-- The changes of the payment that were committed, in the order of the commits. -/
def committedChanges (id : String) : DbHistory → List Change
  | [] => []
  | e :: h =>
    if commits e then committedChanges id h ++ openChanges e.tid id h else committedChanges id h

/-- An entry that neither begins nor commits nor changes anything. -/
structure Idle (e : Entry dbEffects) : Prop where
  begins : begins e = false
  commits : commits e = false
  changes : ∀ id, changes id e = none

/-- An entry of another program makes none of its changes. -/
theorem openChanges_cons_ne {i : ℕ} {id : String} {e : Entry dbEffects} {h : DbHistory}
    (he : e.tid ≠ i) : openChanges i id (e :: h) = openChanges i id h := if_neg he

/-- Nor does an idle entry. -/
theorem Idle.openChanges {e : Entry dbEffects} (he : Idle e) (i : ℕ) (id : String) (h : DbHistory) :
    openChanges i id (e :: h) = openChanges i id h := by
  simp [Analysis.openChanges, he.begins, he.changes]

/-- Only a commit adds to the changes that were committed. -/
theorem committedChanges_cons {id : String} {e : Entry dbEffects} {h : DbHistory}
    (he : commits e = false) : committedChanges id (e :: h) = committedChanges id h := by
  simp [committedChanges, he]

/-- A statement that fails does none of it. -/
theorem idle_error {i : ℕ} {o : DbStmt} {err : Err} : Idle ⟨i, o, .error err⟩ := by
  refine ⟨?_, ?_, fun id => ?_⟩ <;> cases o <;> rfl

/-! ## The invariant -/

variable {env : AuditEnv} {scope : Option String} {init : String → Option Payment}

/-- The database with the history that led to it. -/
abbrev DbWorld (env : AuditEnv) (scope : Option String) := (auditService env scope).World

/-- What holds after every statement, of the database and of the payment in scope. -/
structure DbInv (env : AuditEnv) (scope : Option String) (init : String → Option Payment)
    (db : Database) (h : DbHistory) : Prop where
  sound : SoundLog env db.events db.checkpoints db.nextEventId db.nextCheckpointId
  recent : Recent env db.events db.checkpoints
  /-- the advisory lock is held by an open transaction -/
  held : ∀ i, db.chainLock = some i → ∃ p, db.transactions i = .active p
  /-- only the holder of the advisory lock has appended anything -/
  appended : ∀ i p, db.transactions i = .active p → db.chainLock ≠ some i →
    p.events = [] ∧ p.checkpoints = []
  /-- only the holder of a row has written it -/
  written : ∀ i p id, db.transactions i = .active p → p.payments id ≠ none → db.rowLock id = some i
  path : ∀ id, scope = some id → ∀ row₀, init id = some row₀ → ∃ row, db.payments id = some row ∧
    Path row₀.status (committedChanges id h) row.status
  recorded : ∀ id, scope = some id →
    List.Forall₂ Carries (db.events.filter (statusEvent id)) (committedChanges id h)

/-- What the steps of programs other than `i` may do. -/
structure DbRely (i : ℕ) (db db' : Database) (h h' : DbHistory) : Prop where
  transaction : db'.transactions i = db.transactions i ∨
    (db'.transactions i = .aborted ∧ ∃ p, db.transactions i = .active p)
  chain : db.chainLock = some i → db'.transactions i = db.transactions i →
    db'.chainLock = some i ∧ db'.events = db.events ∧ db'.checkpoints = db.checkpoints ∧
      db'.nextEventId = db.nextEventId ∧ db'.nextCheckpointId = db.nextCheckpointId
  row : ∀ id, db.rowLock id = some i → db'.transactions i = db.transactions i →
    db'.rowLock id = some i ∧ db'.payments id = db.payments id
  changes : ∀ id, openChanges i id h' = openChanges i id h
  events : db.events <+: db'.events

/-- Nobody disturbs a program when nothing happens. -/
theorem DbRely.refl (i : ℕ) (db : Database) (h : DbHistory) : DbRely i db db h h where
  transaction := .inl rfl
  chain hl _ := ⟨hl, rfl, rfl, rfl, rfl⟩
  row _ hl _ := ⟨hl, rfl⟩
  changes _ := rfl
  events := List.prefix_refl _

/-- A transaction that is still the same at the end was so all along. -/
theorem DbRely.still {i : ℕ} {db db' db'' : Database} {h h' h'' : DbHistory}
    (hr : DbRely i db db' h h') (hr' : DbRely i db' db'' h' h'')
    (hs : db''.transactions i = db.transactions i) :
    db'.transactions i = db.transactions i ∧ db''.transactions i = db'.transactions i := by
  rcases hr.transaction with he | ⟨ha, p, hp⟩
  · exact ⟨he, hs.trans he.symm⟩
  · rcases hr'.transaction with he' | ⟨-, p', hp'⟩
    · rw [ha, hs, hp] at he'
      cases he'
    · rw [ha] at hp'
      cases hp'

/-- What disturbs it at no step does not disturb it. -/
theorem DbRely.trans {i : ℕ} {db db' db'' : Database} {h h' h'' : DbHistory}
    (hr : DbRely i db db' h h') (hr' : DbRely i db' db'' h' h'') : DbRely i db db'' h h'' where
  transaction := by
    rcases hr.transaction with he | ⟨ha, p, hp⟩
    · rw [← he]
      exact hr'.transaction
    · rcases hr'.transaction with he' | ⟨-, p', hp'⟩
      · exact .inr ⟨he'.trans ha, p, hp⟩
      · rw [ha] at hp'
        cases hp'
  chain hl hs := by
    obtain ⟨hs₁, hs₂⟩ := hr.still hr' hs
    obtain ⟨hl', he, hc, hn, hm⟩ := hr.chain hl hs₁
    obtain ⟨hl'', he', hc', hn', hm'⟩ := hr'.chain hl' hs₂
    exact ⟨hl'', he'.trans he, hc'.trans hc, hn'.trans hn, hm'.trans hm⟩
  row id hl hs := by
    obtain ⟨hs₁, hs₂⟩ := hr.still hr' hs
    obtain ⟨hl', he⟩ := hr.row id hl hs₁
    obtain ⟨hl'', he'⟩ := hr'.row id hl' hs₂
    exact ⟨hl'', he'.trans he⟩
  changes id := (hr'.changes id).trans (hr.changes id)
  events := hr.events.trans hr'.events

/-- The discipline of the database. A program that has not started has no transaction. -/
def auditDiscipline (env : AuditEnv) (scope : Option String) (init : String → Option Payment) :
    Discipline (auditService env scope) where
  Inv w := DbInv env scope init w.state w.history
  Rely i w w' := DbRely i w.state w'.state w.history w'.history
  Start i w := w.state.transactions i = .idle
  refl i w := DbRely.refl i w.state w.history
  trans _ _ _ _ := DbRely.trans
  start_stable i w w' hs hr := by
    rcases hr.transaction with he | ⟨-, p, hp⟩
    · exact he.trans hs
    · rw [hs] at hp
      cases hp

end SettlementOS.Analysis
