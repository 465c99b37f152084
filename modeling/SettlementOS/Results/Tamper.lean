import SettlementOS.Analysis.AuditChain

/-!
# What a verified log proves

Someone with access to the database may rewrite the log. A verification that reports it valid,
against a checkpoint the key holder signed, proves that what was signed is still there exactly
when every event that was signed is unambiguous, none of its fields having a `|` in it and it being
about a payment, and no row has an id of zero or less. Any other event can be rewritten into a
second one with the same digest, and a row with such an id is never read by the verification.
-/

set_option autoImplicit false

namespace SettlementOS.Results

open SettlementOS.Computation Model Analysis

variable {env : AuditEnv} {key : String}

/-- The log and its checkpoints as someone may have left them: an id is any integer the column
holds, and no two events have the same. -/
structure AuditTables where
  events : List (AuditEvent ℤ)
  checkpoints : List (AuditCheckpoint ℤ)
  unique : (events.map (·.id)).Nodup

/-- `verifyAuditChain`, on tables at rest. -/
def AuditTables.verify (env : AuditEnv) (t : AuditTables) : AuditIntegrity ℤ :=
  env.verifyAuditChain (M := Id) (findEvents t.events) (lastCheckpoint t.checkpoints)
    (findEvent t.events)

/-- What the events say, up to an id. -/
def AuditTables.upTo (t : AuditTables) (id : ℤ) : List EventFields :=
  ((eventsById t.events).filter fun e => e.id ≤ id).map AuditEvent.fields

/-- A log of the appender that was there when the key holder signed its tip. -/
structure SignedLog (env : AuditEnv) where
  events : List AuditEvent
  chain : Chain env events
  last : AuditEvent
  isLast : events.getLast? = some last

/-- What was signed. -/
def SignedLog.fields (log : SignedLog env) : List EventFields := log.events.map AuditEvent.fields

/-- The ids of what was signed. -/
def SignedLog.ids (log : SignedLog env) : List ℤ := log.events.map fun e => (e.id : ℤ)

/-- The checkpoint is one the key holder signed for the log. -/
structure SignedLog.Anchors (log : SignedLog env) (key : String) (c : AuditCheckpoint ℤ) :
    Prop where
  lastEventId : c.lastEventId = log.last.id
  chainHash : c.chainHash = log.last.hash
  signature : c.signature = env.signAnchor c.lastEventId c.chainHash key

/-- Tables with rows under these ids that verify, with the log's checkpoint as their newest, say
what was signed. -/
def SignedLog.Proved (log : SignedLog env) (key : String) (ids : Set ℤ) : Prop :=
  ∀ (t : AuditTables) (c : AuditCheckpoint ℤ), (∀ e ∈ t.events, e.id ∈ ids) →
    lastCheckpoint t.checkpoints = some c → log.Anchors key c →
    (t.verify env).valid = true → t.upTo c.lastEventId = log.fields

/-! ## What verifies -/

/-- The hash of the last event is the tip of what was signed. -/
theorem SignedLog.tip (log : SignedLog env) :
    log.fields.foldl env.hashEvent "GENESIS" = log.last.hash := by
  rw [SignedLog.fields, ← log.chain.linked.tipHash, tipHash, log.isLast]
  rfl

/-- The events of a table, in order. -/
theorem AuditTables.ordered (t : AuditTables) : Ordered (eventsById t.events) := by
  have hsorted : (eventsById t.events).Pairwise fun e e' => e.id ≤ e'.id :=
    List.pairwise_insertionSort (r := fun (e e' : AuditEvent ℤ) => e.id ≤ e'.id) _
  have hnodup : (eventsById t.events).Pairwise fun e e' => e.id ≠ e'.id :=
    List.pairwise_map.mp (((List.perm_insertionSort _ t.events).map _).nodup_iff.mpr t.unique)
  exact (hsorted.and hnodup).imp fun h => lt_of_le_of_ne h.1 h.2

/-- Sorting neither adds nor drops a row. -/
theorem AuditTables.mem_eventsById (t : AuditTables) {e : AuditEvent ℤ} :
    e ∈ eventsById t.events ↔ e ∈ t.events := List.mem_insertionSort _

/-- The verification reads the whole table when all ids are positive. -/
theorem AuditTables.findEvents_zero (t : AuditTables) (hpos : ∀ e ∈ t.events, 0 < e.id) :
    findEvents t.events 0 = eventsById t.events := by
  rw [findEvents, List.filter_eq_self.mpr fun e he => by simpa using hpos e he]

/-- Tables with a checkpoint verify when the chain that is read is linked and the checkpoint,
rightly signed, is of an event that is there with its hash. -/
theorem AuditTables.verify_valid (t : AuditTables) {c : AuditCheckpoint ℤ}
    (hkey : env.anchorKey = some key) (hc : lastCheckpoint t.checkpoints = some c)
    (hsign : c.signature = env.signAnchor c.lastEventId c.chainHash key) :
    (t.verify env).valid = true ↔ Linked env "GENESIS" (findEvents t.events 0) ∧
      ∃ e, findEvent t.events c.lastEventId = some e ∧ e.hash = c.chainHash := by
  rw [← checkChain_valid]
  unfold AuditTables.verify AuditEnv.verifyAuditChain
  simp only [hkey, hc, signatureMatches, hsign, beq_self_eq_true, Bool.not_true, Id, bind, pure]
  by_cases hv : (env.checkChain "GENESIS" (findEvents t.events 0)).valid = true
  · cases he : findEvent t.events c.lastEventId with
    | none => simp [hv]
    | some e => by_cases hh : e.hash = c.chainHash <;> simp [hv, hh]
  · simp [hv]

/-- Up to one of its events, an ordered log is what comes before it, and it. -/
theorem filter_of_ordered {l₁ l₂ : List (AuditEvent ℤ)} {e : AuditEvent ℤ}
    (h : Ordered (l₁ ++ e :: l₂)) :
    (l₁ ++ e :: l₂).filter (fun x => x.id ≤ e.id) = l₁ ++ [e] := by
  obtain ⟨-, htail, hbefore⟩ := List.pairwise_append.mp h
  obtain ⟨hafter, -⟩ := List.pairwise_cons.mp htail
  rw [List.filter_append, List.filter_cons_of_pos (by simp)]
  rw [List.filter_eq_self.mpr fun x hx => by
      simpa using le_of_lt (hbefore x hx e List.mem_cons_self),
    List.filter_eq_nil_iff.mpr fun x hx => by simpa using hafter x hx]

/-- What a table that verifies says up to its checkpoint has the tip that was signed. -/
theorem AuditTables.tip_upTo (t : AuditTables) {c : AuditCheckpoint ℤ} {e : AuditEvent ℤ}
    (hl : Linked env "GENESIS" (eventsById t.events))
    (he : findEvent t.events c.lastEventId = some e) (hh : e.hash = c.chainHash) :
    (t.upTo c.lastEventId).foldl env.hashEvent "GENESIS" = c.chainHash := by
  have hid : e.id = c.lastEventId := by simpa using List.find?_some he
  obtain ⟨l₁, l₂, hes⟩ := List.append_of_mem
    (t.mem_eventsById.mpr (List.mem_of_find?_eq_some he))
  have ho := t.ordered
  rw [hes] at ho hl
  rw [upTo, hes, ← hid, filter_of_ordered ho]
  have hl' : Linked env "GENESIS" (l₁ ++ [e]) := by
    rw [← List.singleton_append, ← List.append_assoc] at hl
    exact (linked_append.mp hl).1
  rw [← hl'.tipHash, ← hh]
  simp [tipHash]

/-! ## What can be forged -/

/-- A log rewritten to say something else. -/
def SignedLog.rewrite (log : SignedLog env) (l : List EventFields) : List (AuditEvent ℤ) :=
  rechain env "GENESIS" (log.ids.zip l)

/-- A row that says nothing and follows nothing. -/
def blankRow (id : ℤ) : AuditEvent ℤ := ⟨id, none, "", "", "", "", ""⟩

/-- The rewritten log, after a row that may be planted before it. -/
def SignedLog.forged (log : SignedLog env) (planted : Option ℤ) (l : List EventFields) :
    List (AuditEvent ℤ) :=
  planted.toList.map blankRow ++ log.rewrite l

section Rewrite

variable {log : SignedLog env} {planted : Option ℤ} {l : List EventFields}

/-- A rewritten log has the ids of the log. -/
theorem ids_rewrite (hlen : l.length = log.fields.length) :
    (log.rewrite l).map (·.id) = log.ids := by
  rw [SignedLog.rewrite, map_id_rechain, List.map_fst_zip]
  simp only [List.length_map, SignedLog.fields, SignedLog.ids] at hlen ⊢
  omega

/-- A rewritten log says what it was rewritten to. -/
theorem fields_rewrite (hlen : l.length = log.fields.length) :
    (log.rewrite l).map AuditEvent.fields = l := by
  rw [SignedLog.rewrite, map_fields_rechain, List.map_snd_zip]
  simp only [List.length_map, SignedLog.fields, SignedLog.ids] at hlen ⊢
  omega

/-- Its rows are under ids of the log. -/
theorem id_of_mem_rewrite (hlen : l.length = log.fields.length) {e : AuditEvent ℤ}
    (he : e ∈ log.rewrite l) : ∃ e' ∈ log.events, (e'.id : ℤ) = e.id := by
  have : e.id ∈ log.ids := ids_rewrite hlen ▸ List.mem_map_of_mem he
  exact List.mem_map.mp this

/-- Its ids are positive. -/
theorem pos_of_mem_rewrite (hlen : l.length = log.fields.length) {e : AuditEvent ℤ}
    (he : e ∈ log.rewrite l) : 0 < e.id := by
  obtain ⟨e', he', hid⟩ := id_of_mem_rewrite hlen he
  exact hid ▸ Int.natCast_pos.mpr (log.chain.positive e' he')

/-- The last event has the largest id. -/
theorem le_last_of_mem_rewrite (hlen : l.length = log.fields.length) {e : AuditEvent ℤ}
    (he : e ∈ log.rewrite l) : e.id ≤ log.last.id := by
  obtain ⟨e', he', hid⟩ := id_of_mem_rewrite hlen he
  obtain ⟨l₁, hl₁⟩ := List.getLast?_eq_some_iff.mp log.isLast
  have ho := log.chain.ordered
  rw [hl₁] at he' ho
  have hle : e'.id ≤ log.last.id := by
    rcases List.mem_append.mp he' with h | h
    · exact le_of_lt ((List.pairwise_append.mp ho).2.2 e' h _ List.mem_cons_self)
    · rw [List.mem_singleton.mp h]
  exact hid ▸ Int.ofNat_le.mpr hle

/-- A rewritten log is in order. -/
theorem ordered_rewrite (hlen : l.length = log.fields.length) : Ordered (log.rewrite l) := by
  have h : log.ids.Pairwise (· < ·) :=
    List.pairwise_map.mpr (log.chain.ordered.imp fun h => Int.ofNat_lt.mpr h)
  rw [← ids_rewrite hlen] at h
  exact List.pairwise_map.mp h

/-- So it is after a planted row. -/
theorem ordered_forged (hlen : l.length = log.fields.length) (hp : ∀ id ∈ planted, id ≤ 0) :
    Ordered (log.forged planted l) := by
  refine List.pairwise_append.mpr ⟨?_, ordered_rewrite hlen, fun e he e' he' => ?_⟩
  · cases planted with
    | none => exact .nil
    | some id => exact List.pairwise_singleton _ _
  · obtain ⟨id, hid, rfl⟩ := List.mem_map.mp he
    exact lt_of_le_of_lt (hp id (Option.mem_toList.mp hid)) (pos_of_mem_rewrite hlen he')

/-- The forged log, with the log's checkpoint. -/
def SignedLog.forgery (log : SignedLog env) (key : String) (planted : Option ℤ)
    (l : List EventFields) (hlen : l.length = log.fields.length)
    (hp : ∀ id ∈ planted, id ≤ 0) : AuditTables where
  events := log.forged planted l
  checkpoints := [⟨1, log.last.id, log.last.hash, env.signAnchor log.last.id log.last.hash key⟩]
  unique := List.pairwise_map.mpr ((ordered_forged hlen hp).imp ne_of_lt)

variable {hlen : l.length = log.fields.length} {hp : ∀ id ∈ planted, id ≤ 0}

/-- A planted row is not read. -/
theorem findEvents_forgery : findEvents (log.forgery key planted l hlen hp).events 0 =
    log.rewrite l := by
  have hskip : (planted.toList.map blankRow).filter (fun e => 0 < e.id) = [] := by
    refine List.filter_eq_nil_iff.mpr fun e he h => ?_
    obtain ⟨id, hid, rfl⟩ := List.mem_map.mp he
    exact not_lt.mpr (hp id (Option.mem_toList.mp hid)) (of_decide_eq_true h)
  have hkeep : (log.rewrite l).filter (fun e => 0 < e.id) = log.rewrite l :=
    List.filter_eq_self.mpr fun e he => by simpa using pos_of_mem_rewrite hlen he
  calc findEvents (log.forgery key planted l hlen hp).events 0
      = eventsById ((planted.toList.map blankRow ++ log.rewrite l).filter fun e => 0 < e.id) := rfl
    _ = eventsById (log.rewrite l) := by rw [List.filter_append, hskip, hkeep, List.nil_append]
    _ = log.rewrite l := eventsById_of_ordered (ordered_rewrite hlen)

/-- A rewritten log with the same tip verifies. -/
theorem forgery_valid (hkey : env.anchorKey = some key)
    (htip : l.foldl env.hashEvent "GENESIS" = log.fields.foldl env.hashEvent "GENESIS") :
    ((log.forgery key planted l hlen hp).verify env).valid = true := by
  rw [AuditTables.verify_valid _ hkey rfl rfl, findEvents_forgery]
  have hlinked : Linked env "GENESIS" (log.rewrite l) := linked_rechain _ _
  refine ⟨hlinked, ?_⟩
  -- the last event of the rewritten log has the id and the hash of the last one that was signed
  have hlast : (log.rewrite l).getLast?.map (·.id) = some (log.last.id : ℤ) := by
    rw [← List.getLast?_map, ids_rewrite hlen, SignedLog.ids, List.getLast?_map, log.isLast]
    rfl
  obtain ⟨e, he, hid⟩ := Option.map_eq_some_iff.mp hlast
  refine ⟨e, ?_, ?_⟩
  · have := findEvent_of_ordered (ordered_forged hlen hp)
      (List.mem_append_right _ (List.mem_of_getLast? he))
    rwa [hid] at this
  · have := hlinked.tipHash
    rw [fields_rewrite hlen, htip, log.tip, tipHash, he] at this
    exact this

/-- What the forgery says: the planted row, and what the log was rewritten to. -/
theorem upTo_forgery : (log.forgery key planted l hlen hp).upTo log.last.id =
    (planted.toList.map blankRow).map AuditEvent.fields ++ l := by
  have hle : ∀ e ∈ log.forged planted l, e.id ≤ log.last.id := by
    intro e he
    rcases List.mem_append.mp he with h | h
    · obtain ⟨id, hid, rfl⟩ := List.mem_map.mp h
      exact (hp id (Option.mem_toList.mp hid)).trans (Int.natCast_nonneg _)
    · exact le_last_of_mem_rewrite hlen h
  rw [AuditTables.upTo, SignedLog.forgery, eventsById_of_ordered (ordered_forged hlen hp),
    List.filter_eq_self.mpr fun e he => by simpa using hle e he, SignedLog.forged,
    List.map_append, fields_rewrite hlen]

/-- Where tables are proved to say what was signed, a forgery under those ids does. -/
theorem SignedLog.Proved.forgery {ids : Set ℤ} (hproved : log.Proved key ids)
    (hkey : env.anchorKey = some key) (hids : ∀ e ∈ log.events, (e.id : ℤ) ∈ ids)
    (planted : Option ℤ) (hplanted : ∀ id ∈ planted, id ∈ ids) (hlen : l.length = log.fields.length)
    (hp : ∀ id ∈ planted, id ≤ 0)
    (htip : l.foldl env.hashEvent "GENESIS" = log.fields.foldl env.hashEvent "GENESIS") :
    (planted.toList.map blankRow).map AuditEvent.fields ++ l = log.fields := by
  refine upTo_forgery.symm.trans (hproved (log.forgery key planted l hlen hp) _ (fun e he => ?_)
    rfl ⟨rfl, rfl, rfl⟩ (forgery_valid hkey htip))
  rcases List.mem_append.mp he with h | h
  · obtain ⟨id, hid, rfl⟩ := List.mem_map.mp h
    exact hplanted id (Option.mem_toList.mp hid)
  · obtain ⟨e', he', hid⟩ := id_of_mem_rewrite hlen h
    exact hid ▸ hids e' he'

end Rewrite

/-- **What a verified log proves.** Tables that verify against a checkpoint of a signed log say what
was signed exactly when no id of theirs is zero or less and every event that was signed is
unambiguous. -/
theorem proved_iff_unambiguous (log : SignedLog env) {ids : Set ℤ}
    (hids : ∀ e ∈ log.events, (e.id : ℤ) ∈ ids) (hkey : env.anchorKey = some key)
    (hinj : Function.Injective env.sha256) (hhex : ∀ s, IsHex (env.sha256 s)) :
    log.Proved key ids ↔ (∀ id ∈ ids, 0 < id) ∧ ∀ f ∈ log.fields, Unambiguous f := by
  have hbinding := digest_binding hinj hhex
  constructor
  · intro hproved
    constructor
    · -- a row planted under another id makes the log longer by one
      intro id hid
      by_contra hn
      have hlonger := hproved.forgery hkey hids (some id) (by simpa using hid) rfl
        (by simpa using hn) rfl
      simpa using congrArg List.length hlonger
    · refine (hbinding.tip_iff (fun f hf => ?_) log.fields).mp fun l hlen htip => ?_
      · obtain ⟨f', hne, hpre⟩ := confused hf
        exact ⟨f', hne, fun d => congrArg env.sha256 (hpre d)⟩
      · exact hproved.forgery hkey hids none (by simp) hlen (by simp) htip
  · rintro ⟨hpos, hU⟩ t c ht hc hanchor hvalid
    obtain ⟨hl, e, he, hh⟩ := (t.verify_valid hkey hc hanchor.signature).mp hvalid
    rw [t.findEvents_zero fun e he => hpos _ (ht e he)] at hl
    have htip := t.tip_upTo hl he hh
    rw [hanchor.chainHash, ← log.tip] at htip
    exact (hbinding.eq_of_tip hU htip.symm).symm

/-! ## A sample log -/

/-- A digest that tells all texts apart: one run of `a` for each character. -/
def sampleDigest (s : String) : String :=
  String.ofList (s.toList.flatMap fun c => List.replicate c.toNat 'a' ++ ['b'])

/-- The sample digest is injective. -/
theorem sampleDigest_injective : Function.Injective sampleDigest := by
  intro s s' h
  have hlist := String.ofList_injective h
  refine String.toList_inj.mp ?_
  generalize s.toList = l at hlist
  generalize s'.toList = l' at hlist
  induction l generalizing l' with
  | nil => cases l' with
    | nil => rfl
    | cons c' l' => simp at hlist
  | cons c l ih =>
    cases l' with
    | nil => simp at hlist
    | cons c' l' =>
      simp only [List.flatMap_cons, List.append_assoc, List.singleton_append] at hlist
      have hrun := congrArg (fun l => (l.takeWhile (· = 'a')).length) hlist
      rw [List.takeWhile_append_of_pos (by simp), List.takeWhile_append_of_pos (by simp)] at hrun
      have hc : c = c' := Char.toNat_inj.mp (by simpa using hrun)
      subst hc
      rw [ih l' (by simpa using hlist)]

/-- The sample digest is hexadecimal. -/
theorem sampleDigest_isHex (s : String) : IsHex (sampleDigest s) := by
  intro c hc
  simp only [sampleDigest, String.toList_ofList, List.mem_flatMap, List.mem_append,
    List.mem_replicate, List.mem_singleton] at hc
  obtain ⟨-, -, ⟨-, rfl⟩ | rfl⟩ := hc <;> decide

/-- An environment with that digest, and a key. -/
def sampleAuditEnv : AuditEnv where
  sha256 := sampleDigest
  hmacSha256 key message := sampleDigest (key ++ message)
  auditAnchorKey := some "k"
  hashText _ := ""
  quoteText _ := ""
  feeText _ := ""

/-- The log of one event, signed. -/
def sampleLog (f : EventFields) : SignedLog sampleAuditEnv where
  events := rechain sampleAuditEnv "GENESIS" [(1, f)]
  chain := ⟨List.pairwise_singleton _ _, by simp [rechain], linked_rechain _ _⟩
  last := ⟨1, f.paymentId, f.actor, f.action, f.detail, "GENESIS",
    sampleAuditEnv.hashEvent "GENESIS" f⟩
  isLast := rfl

/-- A verified log with an event about a payment, in a table of positive ids, proves what was
signed. -/
theorem proved_iff_unambiguous_sample :
    (sampleLog ⟨"payment.status.quoted", "ops", some "p", "[]"⟩).Proved "k" {id | 0 < id} := by
  refine (proved_iff_unambiguous (sampleLog _) (fun e he => ?_) rfl sampleDigest_injective
    sampleDigest_isHex).mpr ⟨fun id hid => hid, fun f hf => ?_⟩
  · obtain rfl := List.mem_singleton.mp he
    exact Int.one_pos
  · obtain rfl := List.mem_singleton.mp hf
    exact ⟨by decide, by decide, by decide, "p", rfl, by decide, by decide⟩

/-- A login of an actor whose name has a `|` in it. -/
def loginEvent : EventFields := ⟨"login", "ops|admin", none, "[]"⟩

/-- What it is rewritten into. -/
def rewrittenEvent : EventFields := ⟨"login|ops", "admin", none, "[]"⟩

/-- The log of the login, rewritten. -/
def rewrittenLog : AuditTables :=
  (sampleLog loginEvent).forgery "k" none [rewrittenEvent] rfl (by simp)

/-- The checkpoint that was signed for it. -/
def loginCheckpoint : AuditCheckpoint ℤ :=
  let hash := (sampleLog loginEvent).last.hash
  ⟨1, 1, hash, sampleAuditEnv.signAnchor (1 : ℤ) hash "k"⟩

/-- The rewritten event is in the log, and the log still verifies. -/
theorem log_rewritten : Function.Injective sampleAuditEnv.sha256 ∧
    (∀ s, IsHex (sampleAuditEnv.sha256 s)) ∧
    lastCheckpoint rewrittenLog.checkpoints = some loginCheckpoint ∧
    (sampleLog loginEvent).Anchors "k" loginCheckpoint ∧
    (rewrittenLog.verify sampleAuditEnv).valid = true ∧
    rewrittenLog.upTo loginCheckpoint.lastEventId = [rewrittenEvent] ∧
    ∀ ids : Set ℤ, 1 ∈ ids → ¬ (sampleLog loginEvent).Proved "k" ids := by
  have htext : AuditEnv.preimage "GENESIS" rewrittenEvent =
      AuditEnv.preimage "GENESIS" loginEvent := by
    decide
  have hlast : lastCheckpoint rewrittenLog.checkpoints = some loginCheckpoint := rfl
  have hanchors : (sampleLog loginEvent).Anchors "k" loginCheckpoint := ⟨rfl, rfl, rfl⟩
  have htip : [rewrittenEvent].foldl sampleAuditEnv.hashEvent "GENESIS" =
      (sampleLog loginEvent).fields.foldl sampleAuditEnv.hashEvent "GENESIS" :=
    congrArg sampleDigest htext
  have hvalid : (rewrittenLog.verify sampleAuditEnv).valid = true := forgery_valid rfl htip
  have hupTo : rewrittenLog.upTo loginCheckpoint.lastEventId = [rewrittenEvent] := upTo_forgery
  refine ⟨sampleDigest_injective, sampleDigest_isHex, hlast, hanchors, hvalid, hupTo,
    fun ids hone hproved => ?_⟩
  have hsame : [rewrittenEvent] = (sampleLog loginEvent).fields := by
    refine hupTo.symm.trans (hproved _ _ (fun e he => ?_) hlast hanchors hvalid)
    obtain rfl := List.mem_singleton.mp he
    exact hone
  exact absurd (congrArg (List.map EventFields.actor) hsame) (by decide)

end SettlementOS.Results
