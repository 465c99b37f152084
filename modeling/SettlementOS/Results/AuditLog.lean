import SettlementOS.Analysis.AuditRequests
import SettlementOS.Analysis.Rollback
import SettlementOS.Model.Saga

/-!
# What the log says of the payments, and of itself

The log and the rows next to it, after any run of requests: status changes, other events,
checkpoints and verifications, interleaved statement by statement, any of which may fail or
be aborted. The events about a payment's status are the changes of its row, one for one; a
call that throws has changed nothing; and the log verifies whenever it is read.
-/

set_option autoImplicit false

namespace SettlementOS.Results

open SettlementOS.Computation Model Program AuditLog Analysis Discipline

variable {env : AuditEnv} {scope : Option String} {init : String → Option Payment}

/-- The configurations of the audit log. -/
abbrev LogConfig (env : AuditEnv) (scope : Option String) := (auditService env scope).Config

/-- The moves of a run. -/
abbrev LogMove (env : AuditEnv) (scope : Option String) := (auditService env scope).Move

/-- Some run of requests leads from a database with these payments, and no event, to the
configuration. -/
def LogReachable (env : AuditEnv) (scope : Option String) (init : String → Option Payment)
    (c : LogConfig env scope) : Prop :=
  (Service.Config.start (Database.created init) : LogConfig env scope).Reaches c

/-- Along every run the invariant holds, and what is left of every request is safe. -/
theorem LogReachable.kept {c : LogConfig env scope} (h : LogReachable env scope init c) :
    (auditDiscipline env scope init).Kept Verified (fun _ _ _ _ => True) c := sound audit_holds h

/-- The database's invariant holds in every configuration that is reached. -/
theorem LogReachable.inv {c : LogConfig env scope} (h : LogReachable env scope init c) :
    DbInv env scope init c.world.state c.world.history := h.kept.inv

/-- A request that has thrown has not committed. -/
theorem LogReachable.uncommitted {c : LogConfig env scope}
    (h : LogReachable env scope init c) {i : ℕ}
    {t : (auditService env scope).Thread} (ht : c.threads[i]? = some t) (hthrew : t.threw = true) :
    ¬ Committed i c.world.history := by
  have hsafe := (sound (commit_holds init) h).safe i t ht
  obtain ⟨r, rest⟩ := t
  cases rest with
  | ret a => cases hthrew
  | throw e => exact hsafe
  | perform o k => cases hthrew

/-! ## Status changes -/

/-- A move that changes what is committed is the commit of a request. -/
theorem committed_of_changed {c c' : LogConfig env scope} {m : LogMove env scope}
    (hm : c.step m = some c') (hne : ¬ SameCommitted c.world.state c'.world.state) :
    ∃ i ch, m = .perform i ch ∧ Committed i c'.world.history := by
  rcases Service.Config.step_eq_some hm with ⟨r, -, rfl⟩ | ⟨i, ch, r, o, k, a, w, rfl, -, he, rfl⟩ |
    ⟨⟨i⟩, s, -, hs, rfl⟩
  · exact absurd ⟨rfl, rfl, rfl⟩ hne
  · obtain ⟨s, hex, rfl⟩ := Service.World.exec_eq_some.mp he
    refine ⟨i, ch, rfl, committed_cons.mpr (.inl ⟨rfl, ?_⟩)⟩
    by_contra hc
    exact hne (same_of_exec hex (Bool.eq_false_iff.mpr hc))
  · simp only [Abort.exec] at hs
    split at hs
    · cases hs
      exact absurd ⟨rfl, rfl, rfl⟩ hne
    · cases hs

/-- **The log follows the payment.** The statuses committed for the payment are a path of legal
changes from its first status, and the events about its status are the steps of that path, one
for one and in their order, each with the two statuses it leads between. Every move that
changes a row, the events or the checkpoints is a step of a call that never throws. -/
theorem statuses_follow {id : String} {row₀ : Payment} {c : LogConfig env (some id)}
    (h : LogReachable env (some id) init c) (h₀ : init id = some row₀) :
    (∃ row, c.world.state.payments id = some row ∧
      Path row₀.status (committedChanges id c.world.history) row.status) ∧
    List.Forall₂ Carries (c.world.state.events.filter (statusEvent id))
      (committedChanges id c.world.history) ∧
    ∀ m c', c.step m = some c' → ¬ SameCommitted c.world.state c'.world.state →
      ∃ i ch, m = .perform i ch ∧
        ∀ c'', c'.Reaches c'' → ∀ t, c''.threads[i]? = some t → t.threw = false := by
  refine ⟨h.inv.path id rfl row₀ h₀, h.inv.recorded id rfl, fun m c' hm hne => ?_⟩
  obtain ⟨i, ch, rfl, e, he, htid, hc⟩ := committed_of_changed hm hne
  refine ⟨i, ch, rfl, fun c'' hr t ht => Bool.eq_false_iff.mpr fun hthrew => ?_⟩
  have hreach : LogReachable env (some id) init c'' := (Service.Config.Reaches.tail h hm).trans hr
  exact hreach.uncommitted ht hthrew ⟨e, hr.history.subset he, htid, hc⟩

/-! ## A sample -/

/-- Digests of a few digits, a key, and a checkpoint after every second event. -/
def sampleLogEnv : AuditEnv where
  sha256 s := Nat.repr (s.toList.foldl (fun n c => (31 * n + c.toNat) % 65521) 7)
  hmacSha256 key s := Nat.repr ((key ++ s).toList.foldl (fun n c => (31 * n + c.toNat) % 65521) 11)
  auditAnchorKey := some "k"
  auditCheckpointInterval := some 2
  hashText _ := ""
  quoteText _ := ""
  feeText _ := ""

/-- One payment, newly created. -/
def samplePayments (id : String) : Option Payment :=
  if id = "p" then
    some (NewPayment.row ⟨"p", "r", "100.00", "USD", "USD", "alpha", "beta"⟩)
  else none

/-- Request `i` performs its next statements, none of which fails. -/
def logSteps {scope : Option String} (i n : ℕ) : List (LogMove sampleLogEnv scope) :=
  List.replicate n (.perform i none)

/-- A run on the log leads to a reachable configuration. -/
theorem logReached {ms : List (LogMove env scope)} {P : LogConfig env scope → Bool}
    (h : ((Service.Config.start (Database.created init) : LogConfig env scope).run ms).any P
      = true) :
    ∃ c, LogReachable env scope init c ∧ P c = true := by
  obtain ⟨c, hc, hP⟩ := (Option.any_eq_true _ _).mp h
  exact ⟨c, ⟨ms, hc⟩, hP⟩

/-- A status change from `DRAFT` to `QUOTED`. -/
def quoting : { r : AuditRequest // r.Allowed (some "p") } :=
  ⟨.transition "p" .draft .quoted {}, fun _ => ⟨rfl, by simp⟩⟩

/-- Two such changes race: the second finds the row changed when the first has committed. -/
def racingRun : List (LogMove sampleLogEnv (some "p")) :=
  [.start quoting, .start quoting] ++ logSteps 0 3 ++ logSteps 1 1 ++ logSteps 0 6 ++ logSteps 1 2

/-- The one that wins has its event, the one that throws has left nothing. -/
theorem statuses_follow_race : ∃ c : LogConfig sampleLogEnv (some "p"),
    LogReachable sampleLogEnv (some "p") samplePayments c ∧
    c.threads.map Service.Thread.threw = [false, true] ∧
    List.Forall₂ Carries (c.world.state.events.filter (statusEvent "p"))
      [(PaymentStatus.draft, PaymentStatus.quoted)] := by
  obtain ⟨c, hc, hP⟩ := logReached (show
    ((Service.Config.start (Database.created samplePayments) : LogConfig _ _).run racingRun).any
      (fun c => c.threads.map Service.Thread.threw == [false, true] &&
        committedChanges "p" c.world.history == [(.draft, .quoted)]) = true by decide +kernel)
  simp only [Bool.and_eq_true, beq_iff_eq] at hP
  refine ⟨c, hc, hP.1, ?_⟩
  have := (statuses_follow hc rfl).2.1
  rwa [hP.2] at this

/-! ## The chain -/

/-- **The log verifies.** What is committed is one chain from `GENESIS` on, its ids increasing;
every verification that has returned has found nothing wrong, whatever was appended between its
reads; and with a key fewer events than the interval lie past the newest checkpoint. -/
theorem log_chained {c : LogConfig env none} (h : LogReachable env none init c) :
    Chain env c.world.state.events ∧
    (∀ t ∈ c.threads, ∀ integrity, t.rest = .ret (.integrity integrity) → integrity.valid = true) ∧
    (env.anchorKey ≠ none →
      countEvents c.world.state.events (anchorId c.world.state.checkpoints) <
        env.checkpointInterval) := by
  refine ⟨h.inv.sound.chain, fun t ht integrity hrest => ?_, h.inv.recent⟩
  obtain ⟨i, hi⟩ := List.getElem?_of_mem ht
  have hsafe := h.kept.safe i t hi
  rw [hrest] at hsafe
  exact hsafe integrity rfl

/-- One event about nothing in particular. -/
def logging : { r : AuditRequest // r.Allowed none } :=
  ⟨.audit [⟨"entity.created", "ops", none, [("country", .str "SG")]⟩],
    fun _ _ hne h => absurd h hne⟩

/-- A verification reads the events, and the checkpoint only when a second event was appended. -/
def verifyingRun : List (LogMove sampleLogEnv none) :=
  .start logging :: logSteps 0 7 ++ .start ⟨.verify, trivial⟩ :: logSteps 1 1 ++
    .start logging :: logSteps 2 8 ++ logSteps 1 2

/-- The verification that a request has returned. -/
def verified (t : (auditService env scope).Thread) : Option AuditIntegrity :=
  match t.rest with
  | .ret (.integrity integrity) => some integrity
  | _ => none

/-- It has read one event, a checkpoint of the second one, and is right about both. -/
theorem log_chained_interleaved : ∃ (c : LogConfig sampleLogEnv none) (integrity : AuditIntegrity),
    LogReachable sampleLogEnv none samplePayments c ∧ c.threads.filterMap verified = [integrity] ∧
    integrity.eventsVerified = 1 ∧ integrity.checkpoint = some (1, 2) ∧ integrity.valid = true ∧
    Chain sampleLogEnv c.world.state.events ∧ c.world.state.events.length = 2 := by
  obtain ⟨c, hc, hP⟩ := logReached (show
    ((Service.Config.start (Database.created samplePayments) : LogConfig _ _).run verifyingRun).any
      (fun c => (c.threads.filterMap verified).map (fun r => (r.eventsVerified, r.checkpoint)) ==
        [(1, some (1, 2))] && c.world.state.events.length == 2) = true by decide +kernel)
  simp only [Bool.and_eq_true, beq_iff_eq, List.map_eq_singleton_iff, Prod.mk.injEq] at hP
  obtain ⟨⟨integrity, hr, hn, hcheckpoint⟩, hlen⟩ := hP
  obtain ⟨hchain, hvalid, -⟩ := log_chained hc
  refine ⟨c, integrity, hc, hr, hn, hcheckpoint, ?_, hchain, hlen⟩
  obtain ⟨t, ht, hv⟩ := List.mem_filterMap.mp (hr ▸ List.mem_singleton_self integrity)
  refine hvalid t ht integrity ?_
  unfold verified at hv
  split at hv
  · rename_i hrest
    cases hv
    exact hrest
  · cases hv

end SettlementOS.Results
