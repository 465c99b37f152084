import SettlementOS.Computation.HashChain
import SettlementOS.Model.Audit

/-!
# Chained events

A log is a `Chain` when its ids increase and each event's hash covers its fields and the hash
before it. Its last hash is then the tip of its fields, in the sense of
`SettlementOS.Computation.HashChain`, and the verification accepts it. What the digests tell
apart is settled here as well: a text of fields joined by `|` stands for one event only as
long as no field has a `|` in it and the payment is neither null nor empty.
-/

set_option autoImplicit false

namespace SettlementOS.Analysis

open SettlementOS.Computation Model

variable {I : Type} {env : AuditEnv} {prev : String} {es es' : List (AuditEvent I)}

/-! ## Links -/

/-- Every event follows the one before, and its hash is the hash of what it says. -/
def Linked (env : AuditEnv) : String → List (AuditEvent I) → Prop
  | _, [] => True
  | prev, e :: es =>
    e.prevHash = prev ∧ e.hash = env.hashEvent prev e.fields ∧ Linked env e.hash es

/-- The hash the next event has to follow. -/
def tipHash (prev : String) (es : List (AuditEvent I)) : String :=
  (es.getLast?.map (·.hash)).getD prev

/-- The tip is that of the events after the first, from its hash on. -/
theorem tipHash_cons (prev : String) (e : AuditEvent I) (es : List (AuditEvent I)) :
    tipHash prev (e :: es) = tipHash e.hash es := by
  cases es <;> simp [tipHash, List.getLast?_cons]

/-- Two stretches are linked if the second begins at the tip of the first. -/
theorem linked_append {prev : String} : Linked env prev (es ++ es') ↔
    Linked env prev es ∧ Linked env (tipHash prev es) es' := by
  induction es generalizing prev with
  | nil => simp [Linked, tipHash]
  | cons e es ih => simp [Linked, ih, tipHash_cons, and_assoc]

/-- The loop of the verification finds nothing exactly in a linked log. -/
theorem firstBroken_eq_none : env.firstBroken prev es = none ↔ Linked env prev es := by
  induction es generalizing prev with
  | nil => simp [AuditEnv.firstBroken, Linked]
  | cons e es ih =>
    unfold AuditEnv.firstBroken Linked
    split
    · rename_i h
      simp only [reduceCtorEq, false_iff]
      rintro ⟨hp, hh, -⟩
      exact h.elim (· hp) (· hh)
    · rename_i h
      simp only [not_or, not_not] at h
      simp [ih, h]

/-- The check finds a chain valid exactly if it is linked. -/
theorem checkChain_valid : (env.checkChain prev es).valid = true ↔ Linked env prev es := by
  rw [← firstBroken_eq_none]
  unfold AuditEnv.checkChain
  cases env.firstBroken prev es <;> simp

/-- The last hash of a linked log is the tip of its fields. -/
theorem Linked.tipHash (h : Linked env prev es) :
    tipHash prev es = (es.map AuditEvent.fields).foldl env.hashEvent prev := by
  induction es generalizing prev with
  | nil => simp [Analysis.tipHash]
  | cons e es ih =>
    obtain ⟨-, hh, hl⟩ := h
    rw [tipHash_cons, ih hl, List.map_cons, List.foldl_cons, ← hh]

/-! ## Order -/

section Order

variable [LinearOrder I]

/-- The ids increase. -/
def Ordered (es : List (AuditEvent I)) : Prop := es.Pairwise fun e e' => e.id < e'.id

/-- Events in the order of their ids are already sorted. -/
theorem eventsById_of_ordered (h : Ordered es) : eventsById es = es :=
  List.Pairwise.insertionSort_eq (h.imp le_of_lt)

/-- The last of events in the order of their ids is at their end. -/
theorem lastEvent_of_ordered (h : Ordered es) : lastEvent es = es.getLast? := by
  rw [lastEvent, eventsById_of_ordered h]

/-- From below all ids every event is found. -/
theorem findEvents_of_after {afterId : I} (h : Ordered es) (hp : ∀ e ∈ es, afterId < e.id) :
    findEvents es afterId = es := by
  rw [findEvents, List.filter_eq_self.mpr fun e he => by simpa using hp e he,
    eventsById_of_ordered h]

/-- The event under an id. -/
theorem findEvent_of_ordered (h : Ordered es) {e : AuditEvent I} (he : e ∈ es) :
    findEvent es e.id = some e := by
  induction es with
  | nil => cases he
  | cons e' es ih =>
    obtain ⟨hlt, ho⟩ := List.pairwise_cons.mp h
    unfold findEvent
    rcases List.mem_cons.mp he with rfl | hmem
    · simp
    · rw [List.find?_cons_of_neg (by simpa using (hlt e hmem).ne)]
      exact ih ho hmem

/-- A log as the appender keeps it. -/
structure Chain [OfNat I 0] (env : AuditEnv) (es : List (AuditEvent I)) : Prop where
  ordered : Ordered es
  positive : ∀ e ∈ es, 0 < e.id
  linked : Linked env "GENESIS" es

/-- A log without events is a chain. -/
theorem chain_nil [OfNat I 0] : Chain (I := I) env [] := ⟨.nil, by simp, trivial⟩

/-- The event that `appendEvent` writes keeps the chain. -/
theorem Chain.append [OfNat I 0] (h : Chain env es) {e : AuditEvent I}
    (hid : ∀ e' ∈ es, e'.id < e.id)
    (hpos : 0 < e.id) (hprev : e.prevHash = Analysis.tipHash "GENESIS" es)
    (hhash : e.hash = env.hashEvent e.prevHash e.fields) : Chain env (es ++ [e]) where
  ordered := List.pairwise_append.mpr ⟨h.ordered, List.pairwise_singleton _ _,
    fun e' he' x hx => by simp only [List.mem_singleton] at hx; exact hx ▸ hid e' he'⟩
  positive e' he' := by
    rcases List.mem_append.mp he' with h' | h'
    · exact h.positive e' h'
    · simp only [List.mem_singleton] at h'
      exact h' ▸ hpos
  linked := linked_append.mpr ⟨h.linked, hprev, hprev ▸ hhash, trivial⟩

end Order

/-! ## What a digest tells apart -/

/-- An event whose text stands for it alone. -/
def Unambiguous (f : EventFields) : Prop :=
  '|' ∉ f.action.toList ∧ '|' ∉ f.actor.toList ∧ '|' ∉ f.detail.toList ∧
    ∃ id, f.paymentId = some id ∧ id ≠ "" ∧ '|' ∉ id.toList

/-- The fields a text is made of. -/
def texts (prev : String) (f : EventFields) : List (List Char) :=
  [prev.toList, f.action.toList, f.actor.toList, (f.paymentId.getD "").toList, f.detail.toList]

/-- A preimage is its texts with bars between them. -/
theorem toList_preimage (prev : String) (f : EventFields) :
    (AuditEnv.preimage prev f).toList = ['|'].intercalate (texts prev f) := by
  simp [AuditEnv.preimage, texts, List.intercalate_cons_cons, toString]

/-- A digest has no `|` in it and is not `GENESIS`. -/
def IsHex (s : String) : Prop := ∀ c ∈ s.toList, c ∈ "0123456789abcdef".toList

/-- The preimage of unambiguous fields tells them, and the hash before. -/
theorem preimage_inj {prev prev' : String} {f f' : EventFields} (hp : '|' ∉ prev.toList)
    (hU : Unambiguous f) (h : AuditEnv.preimage prev f = AuditEnv.preimage prev' f') :
    prev = prev' ∧ f = f' := by
  obtain ⟨ha, hc, hd, id, hid, hne, hi⟩ := hU
  have htexts : texts prev f = texts prev' f' := by
    have hjoined : ['|'].intercalate (texts prev f) = ['|'].intercalate (texts prev' f') := by
      rw [← toList_preimage, ← toList_preimage, h]
    refine intercalate_inj rfl ?_ hjoined
    · intro l hl
      simp only [texts, hid, Option.getD_some, List.mem_cons, List.not_mem_nil, or_false] at hl
      rcases hl with rfl | rfl | rfl | rfl | rfl
      exacts [hp, ha, hc, hi, hd]
  simp only [texts, List.cons.injEq, and_true, String.toList_inj] at htexts
  obtain ⟨hprev, haction, hactor, hpid, hdetail⟩ := htexts
  refine ⟨hprev, ?_⟩
  have hpayment : f.paymentId = f'.paymentId := by
    rw [hid, Option.getD_some] at hpid
    cases h' : f'.paymentId with
    | none => exact absurd (hpid.trans (by rw [h']; rfl)) hne
    | some id' =>
      rw [h', Option.getD_some] at hpid
      rw [hid, hpid]
  cases f
  cases f'
  simp_all

/-- Digests tell unambiguous events apart. -/
theorem digest_binding (hinj : Function.Injective env.sha256) (hhex : ∀ s, IsHex (env.sha256 s)) :
    Binding env.hashEvent "GENESIS" (fun d => '|' ∉ d.toList) Unambiguous where
  good_root := by decide
  good_link _ _ h := absurd (hhex _ _ h) (by decide)
  fresh d f h := by
    have := hhex (AuditEnv.preimage d f) 'G' (by
      rw [show env.sha256 (AuditEnv.preimage d f) = "GENESIS" from h]
      decide)
    exact absurd this (by decide)
  inj _ _ _ _ hd _ hU h := preimage_inj hd hU (hinj h)

/-- A text with a `|` in it, cut there. -/
theorem cut_of_mem {s : String} (h : '|' ∈ s.toList) : ∃ a b, s = a ++ "|" ++ b := by
  obtain ⟨a, b, hs⟩ := List.append_of_mem h
  refine ⟨String.ofList a, String.ofList b, String.toList_inj.mp ?_⟩
  simp [hs]

/-- A part is not the whole. -/
theorem ne_of_cut (a b : String) : a ≠ a ++ "|" ++ b ∧ b ≠ a ++ "|" ++ b := by
  refine ⟨fun h => ?_, fun h => ?_⟩ <;>
    · have := congrArg (fun s : String => s.toList.length) h
      simp only [String.toList_append, List.length_append] at this
      have : "|".toList.length = 1 := rfl
      omega

/-- The text of any other event is the text of a second one as well. -/
theorem confused {f : EventFields} (h : ¬ Unambiguous f) :
    ∃ f', f' ≠ f ∧ ∀ prev, AuditEnv.preimage prev f' = AuditEnv.preimage prev f := by
  obtain ⟨action, actor, paymentId, detail⟩ := f
  by_cases ha : '|' ∈ action.toList
  · obtain ⟨a, b, rfl⟩ := cut_of_mem ha
    refine ⟨⟨a, b ++ "|" ++ actor, paymentId, detail⟩, fun he => ?_, fun prev => ?_⟩
    · exact (ne_of_cut a b).1 (congrArg EventFields.action he)
    · simp [AuditEnv.preimage, String.append_assoc, toString]
  by_cases hc : '|' ∈ actor.toList
  · obtain ⟨a, b, rfl⟩ := cut_of_mem hc
    refine ⟨⟨action ++ "|" ++ a, b, paymentId, detail⟩, fun he => ?_, fun prev => ?_⟩
    · exact (ne_of_cut a b).2 (congrArg EventFields.actor he)
    · simp [AuditEnv.preimage, String.append_assoc, toString]
  by_cases hd : '|' ∈ detail.toList
  · obtain ⟨a, b, rfl⟩ := cut_of_mem hd
    refine ⟨⟨action, actor, some (paymentId.getD "" ++ "|" ++ a), b⟩, fun he => ?_, fun prev => ?_⟩
    · exact (ne_of_cut a b).2 (congrArg EventFields.detail he)
    · simp [AuditEnv.preimage, String.append_assoc, toString]
  -- what is left is the payment: null and the empty string are written alike
  cases paymentId with
  | none => exact ⟨⟨action, actor, some "", detail⟩, by simp, fun _ => rfl⟩
  | some id =>
    by_cases he : id = ""
    · subst he
      exact ⟨⟨action, actor, none, detail⟩, by simp, fun _ => rfl⟩
    · by_cases hi : '|' ∈ id.toList
      · obtain ⟨a, b, rfl⟩ := cut_of_mem hi
        refine ⟨⟨action, actor ++ "|" ++ a, some b, detail⟩, fun he => ?_, fun prev => ?_⟩
        · exact (ne_of_cut actor a).1 (congrArg EventFields.actor he).symm
        · simp [AuditEnv.preimage, String.append_assoc, toString]
      · exact absurd ⟨ha, hc, hd, id, rfl, he, hi⟩ h

/-! ## Logs from fields -/

/-- The rows of a log with these ids and fields, each hashed as the appender hashes it. -/
def rechain (env : AuditEnv) : String → List (I × EventFields) → List (AuditEvent I)
  | _, [] => []
  | prev, (id, f) :: rest =>
    let hash := env.hashEvent prev f
    ⟨id, f.paymentId, f.actor, f.action, f.detail, prev, hash⟩ :: rechain env hash rest

/-- What is chained anew is linked. -/
theorem linked_rechain (prev : String) (l : List (I × EventFields)) :
    Linked env prev (rechain env prev l) := by
  induction l generalizing prev with
  | nil => trivial
  | cons x l ih => exact ⟨rfl, rfl, ih _⟩

/-- Chaining anew keeps the ids. -/
theorem map_id_rechain (prev : String) (l : List (I × EventFields)) :
    (rechain env prev l).map (·.id) = l.map Prod.fst := by
  induction l generalizing prev with
  | nil => rfl
  | cons x l ih => simp [rechain, ih]

/-- Chaining anew keeps the fields. -/
theorem map_fields_rechain (prev : String) (l : List (I × EventFields)) :
    (rechain env prev l).map AuditEvent.fields = l.map Prod.snd := by
  induction l generalizing prev with
  | nil => rfl
  | cons x l ih => simp [rechain, AuditEvent.fields, ih]

end SettlementOS.Analysis
