import SettlementOS.Program.TenantRoutes

/-!
# What a tenant is answered for an id it has no part in

Endpoint by endpoint: an id of no row the tenant sees is answered without anything of the tables
in it.
-/

set_option autoImplicit false

namespace SettlementOS.Analysis

open SettlementOS.Computation Model Program

variable {sys : Backend} {db : Tables} {principal : Principal} {id : String}

/-- A principal that acts for one entity. -/
structure Tenant (principal : Principal) : Prop where
  role : principal.role = .entity
  entity : ∃ entityId, principal.entityId = some entityId

/-- No payment with the id has the principal for a party. -/
def HiddenPayment (db : Tables) (principal : Principal) (id : String) : Prop :=
  ∀ row ∈ db.payments.rows, row.payment.id = id →
    principal.entityId ≠ some row.senderId ∧ principal.entityId ≠ some row.payment.recipientId

/-- The id is not that of the principal's entity, as far as there is one in the table. -/
def HiddenEntity (db : Tables) (principal : Principal) (id : String) : Prop :=
  ∀ row ∈ db.entities.rows, row.entity.id = id → principal.entityId ≠ some id

/-- What a cursor out of scope is answered with, once the page request is read. -/
def cursorRefused (page : Except String PageRequest) : Answer := do
  let _ ← page.mapError badPage
  .error (invalidRequest "cursor is not valid")

/-- The empty page of entities. -/
def noEntities (page : Except String PageRequest) : Answer := do
  let _ ← page.mapError badPage
  return .entities ⟨[], none, false⟩

namespace Tenant

/-- A tenant has no role on the platform. -/
theorem not_platform (ht : Tenant principal) : isPlatformRole principal = false := by
  simp [isPlatformRole, ht.role]

/-- A tenant acts for no other entity. -/
theorem actsFor_eq_false (ht : Tenant principal) {entity : String}
    (h : principal.entityId ≠ some entity) : actsFor principal entity = false := by
  obtain ⟨entityId, hentity⟩ := ht.entity
  unfold actsFor
  rw [hentity]
  refine decide_eq_false fun heq => h ?_
  rw [hentity, heq]

/-- A hidden payment is out of the tenant's scope. -/
theorem scope_of_hidden (ht : Tenant principal) {row : PaymentRecord}
    (h : principal.entityId ≠ some row.senderId ∧
      principal.entityId ≠ some row.payment.recipientId) :
    paymentScopeWhere principal row = false := by
  unfold paymentScopeWhere
  rw [ht.not_platform, ht.actsFor_eq_false h.1, ht.actsFor_eq_false h.2]
  rfl

/-- The entity of a tenant is the only one in its scope. -/
theorem entityScope (ht : Tenant principal) {entityId : String}
    (hentity : principal.entityId = some entityId) {row : EntityRow}
    (h : entityScopeWhere principal row = true) : row.entity.id = entityId := by
  unfold entityScopeWhere at h
  rw [ht.not_platform, Bool.false_or] at h
  unfold actsFor at h
  rw [hentity] at h
  exact of_decide_eq_true h

/-! ## Payments by id -/

/-- The route for a payment does not find a hidden one. -/
theorem getPaymentRoute_hidden (ht : Tenant principal) (h : HiddenPayment db principal id) :
    getPaymentRoute db principal id = .error notFound := by
  unfold getPaymentRoute
  cases hfind : db.payments.find id with
  | none => rfl
  | some row =>
    obtain ⟨hmem, hid⟩ := Table.find_eq_some hfind
    obtain ⟨hsender, hrecipient⟩ := h row hmem hid
    refine if_neg fun hseen => ?_
    rcases hseen with hplatform | hseen | hseen
    · rw [ht.not_platform] at hplatform
      cases hplatform
    · exact hsender hseen
    · exact hrecipient hseen

/-- The tool for a payment does not find a hidden one. -/
theorem getPaymentTool_hidden (ht : Tenant principal) (h : HiddenPayment db principal id) :
    getPaymentTool db principal id = .error notFound := by
  have hnone : db.payments.findFirst id (paymentScopeWhere principal) = none :=
    Table.findFirst_eq_none fun row hmem hid => ht.scope_of_hidden (h row hmem hid)
  unfold getPaymentTool
  rw [hnone]

/-- Nothing is written to a hidden payment. -/
theorem writePayment_hidden (ht : Tenant principal) (h : HiddenPayment db principal id)
    (w : Write) : writePayment sys db principal id w = .error notFound := by
  unfold writePayment
  cases hfind : db.payments.find id with
  | none => rfl
  | some row =>
    obtain ⟨hmem, hid⟩ := Table.find_eq_some hfind
    obtain ⟨hsender, hrecipient⟩ := h row hmem hid
    have hdenied : authorizePaymentWrite principal row.senderId row.payment.recipientId =
        .error notFound := by
      unfold authorizePaymentWrite
      rw [ht.role]
      dsimp only
      rw [if_neg hsender, if_neg hrecipient]
    dsimp only
    rw [hdenied]
    rfl

/-! ## Cursors -/

/-- A list that asks its cursor refuses one that is out of scope. -/
theorem page_hidden (ht : Tenant principal) {page : Except String PageRequest}
    {inScope : String → Bool} {f : PageRequest → Body}
    (hcursor : ∀ p, page = .ok p → p.cursor = some id) (hscope : inScope id = false) :
    (do
      let p ← page.mapError badPage
      assertTenantCursor principal p.cursor inScope
      return f p) = cursorRefused page := by
  cases page with
  | error m => rfl
  | ok p =>
    have hrefused : assertTenantCursor principal (some id) inScope =
        .error (invalidRequest "cursor is not valid") := by
      simp only [assertTenantCursor, ht.not_platform, hscope]
      rfl
    simp only [Except.mapError, cursorRefused, bind, Except.bind, hcursor p rfl, hrefused]

/-- A hidden payment is no cursor in scope. -/
theorem paymentInScope_hidden (ht : Tenant principal) (h : HiddenPayment db principal id) :
    paymentInScope db principal id = false := by
  have hnone : db.payments.findFirst id (visiblePaymentsWhere principal) = none := by
    refine Table.findFirst_eq_none fun row hmem hid => ?_
    unfold visiblePaymentsWhere
    rw [ht.scope_of_hidden (h row hmem hid)]
    rfl
  unfold paymentInScope
  rw [hnone]
  rfl

/-- A hidden entity is no cursor in scope. -/
theorem entityInScope_hidden (ht : Tenant principal) (h : HiddenEntity db principal id) :
    entityInScope db principal id = false := by
  obtain ⟨entityId, hentity⟩ := ht.entity
  have hnone : db.entities.findFirst id (entityScopeWhere principal) = none := by
    refine Table.findFirst_eq_none fun row hmem hid => ?_
    apply Bool.eq_false_iff.mpr
    intro hscope
    have hown := ht.entityScope hentity hscope
    exact h row hmem hid (by rw [hentity, ← hid, hown])
  unfold entityInScope
  rw [hnone]
  rfl

/-- The route that lists payments refuses a hidden one for its cursor. -/
theorem listPaymentsRoute_hidden (ht : Tenant principal) (h : HiddenPayment db principal id)
    (hne : id ≠ "") (limit : Option String) :
    listPaymentsRoute sys db principal limit (some id) =
      cursorRefused (parsePageRequest limit (some id)) :=
  ht.page_hidden (fun _ hpage => parsePageRequest_cursor hpage hne) (ht.paymentInScope_hidden h)

/-- The cursor of a tool's arguments. -/
theorem pageFromArgs_cursor (hne : id ≠ "") (limit : Option ℤ) :
    pageFromArgs limit (some id) = parsePageRequest (limit.map toString) (some id) := by
  have hfilter : (some id).filter (· ≠ "") = some id := by simp [hne]
  unfold pageFromArgs
  rw [hfilter]

/-- So does the tool that lists them. -/
theorem listPaymentsTool_hidden (ht : Tenant principal) (h : HiddenPayment db principal id)
    (hne : id ≠ "") (limit : Option ℤ) :
    listPaymentsTool sys db principal limit (some id) =
      cursorRefused (parsePageRequest (limit.map toString) (some id)) := by
  unfold listPaymentsTool
  rw [pageFromArgs_cursor hne]
  exact ht.page_hidden (fun _ hpage => parsePageRequest_cursor hpage hne)
    (ht.paymentInScope_hidden h)

/-- The tool that lists entities refuses a hidden one for its cursor. -/
theorem listEntitiesTool_hidden (ht : Tenant principal) (h : HiddenEntity db principal id)
    (hne : id ≠ "") (limit : Option ℤ) :
    listEntitiesTool sys db principal limit (some id) =
      cursorRefused (parsePageRequest (limit.map toString) (some id)) := by
  unfold listEntitiesTool
  rw [pageFromArgs_cursor hne]
  exact ht.page_hidden (fun _ hpage => parsePageRequest_cursor hpage hne)
    (ht.entityInScope_hidden h)

/-- Behind any cursor a tenant finds nothing: its own entity is the one row it sees, and that
one is skipped. -/
theorem listEntitiesRoute_cursor (ht : Tenant principal) (hne : id ≠ "")
    (limit : Option String) : listEntitiesRoute sys db principal limit (some id) =
      noEntities (parsePageRequest limit (some id)) := by
  obtain ⟨entityId, hentity⟩ := ht.entity
  unfold listEntitiesRoute noEntities
  cases hpage : parsePageRequest limit (some id) with
  | error m => rfl
  | ok page =>
    have hempty : db.entities.findMany (oldestFirst sys) (entityScopeWhere principal) page.cursor
        (skipOf page.cursor) (page.limit + 1) = [] := by
      rw [parsePageRequest_cursor hpage hne]
      exact Table.findMany_of_pinned (fun _ hscope => ht.entityScope hentity hscope) _
        (Nat.le_refl 1) _
    simp only [Except.mapError, bind, Except.bind, entitiesPage, hempty]
    rfl

end Tenant

/-! ## All endpoints -/

/-- The answer for a payment that is not there, behind the rate limit. -/
def missingPayment (limited : Option ApiErrorResult) : Answer :=
  .error (limited.getD notFound)

/-- What an id the tenant has no part in is answered with. Nothing of the tables is in it. -/
def refusal (sys : Backend) (record : Idempotency.Key → RecordState) (id : String) :
    Endpoint → Outcome
  | .getPayment => .answer (.error notFound)
  | .quotePayment limited => .answer (missingPayment limited)
  | .cancelPayment limited => .answer (missingPayment limited)
  | .executePayment limited none _ => .answer (missingPayment limited)
  | .executePayment limited (some key) body =>
    .keyed (keyedReply sys (record key) limited key id body (.error notFound))
  | .listPayments limit => .answer (cursorRefused (parsePageRequest limit (some id)))
  | .listEntities limit => .answer (noEntities (parsePageRequest limit (some id)))
  | .getPaymentTool => .answer (.error notFound)
  | .listPaymentsTool limit =>
    .answer (cursorRefused (parsePageRequest (limit.map toString) (some id)))
  | .listEntitiesTool limit =>
    .answer (cursorRefused (parsePageRequest (limit.map toString) (some id)))

/-- The id is of nothing the tenant has a part in. -/
def Hidden (db : Tables) (principal : Principal) (e : Endpoint) (id : String) : Prop :=
  if e.ofEntities then HiddenEntity db principal id else HiddenPayment db principal id

/-- A write behind the rate limit finds a hidden payment missing. -/
theorem limitedWrite_hidden (ht : Tenant principal) (h : HiddenPayment db principal id)
    (limited : Option ApiErrorResult) (w : Write) :
    limitedWrite sys db principal limited id w = missingPayment limited := by
  unfold limitedWrite missingPayment
  cases limited with
  | some refused => rfl
  | none => exact ht.writePayment_hidden h w

/-- **Nothing of the tables is in the answer for a hidden id.** -/
theorem respond_hidden (ht : Tenant principal) {e : Endpoint} (h : Hidden db principal e id)
    (hne : id ≠ "") :
    e.respond sys db principal id = refusal sys (db.records principal.keyId) id e := by
  cases e with
  | getPayment => exact congrArg Outcome.answer (ht.getPaymentRoute_hidden h)
  | quotePayment limited => exact congrArg Outcome.answer (limitedWrite_hidden ht h limited _)
  | cancelPayment limited => exact congrArg Outcome.answer (limitedWrite_hidden ht h limited _)
  | executePayment limited key body =>
    cases key with
    | none => exact congrArg Outcome.answer (limitedWrite_hidden ht h limited _)
    | some key =>
      have hanswer : writePayment sys db principal id (.execute body) = .error notFound :=
        ht.writePayment_hidden h (.execute body)
      simp only [Endpoint.respond, refusal, keyedExecute, hanswer]
  | listPayments limit => exact congrArg Outcome.answer (ht.listPaymentsRoute_hidden h hne limit)
  | listEntities limit => exact congrArg Outcome.answer (ht.listEntitiesRoute_cursor hne limit)
  | getPaymentTool => exact congrArg Outcome.answer (ht.getPaymentTool_hidden h)
  | listPaymentsTool limit =>
    exact congrArg Outcome.answer (ht.listPaymentsTool_hidden h hne limit)
  | listEntitiesTool limit =>
    exact congrArg Outcome.answer (ht.listEntitiesTool_hidden h hne limit)

/-! ## Two ids -/

/-- An id that can be a cursor. -/
def ProperId (id : String) : Prop := id ≠ "" ∧ utf16Length id ≤ 200

/-- Two proper ids are cursors of the same pages. -/
theorem parsePageRequest_proper (h : ProperId id) (limit : Option String) :
    parsePageRequest limit (some id) =
      (parseLimit limit).map fun limit => ⟨limit, some id⟩ := by
  have hfilter : (some id).filter (· ≠ "") = some id := by simp [h.1]
  have hcursor : parseCursor (some id) = .ok (some id) := by
    simp only [parseCursor, hfilter]
    exact if_neg (by simpa using h.2)
  unfold parsePageRequest
  rw [hcursor]
  cases parseLimit limit <;> rfl

/-- Proper ids are refused alike. -/
theorem cursorRefused_proper {id' : String} (h : ProperId id) (h' : ProperId id')
    (limit : Option String) : cursorRefused (parsePageRequest limit (some id)) =
      cursorRefused (parsePageRequest limit (some id')) := by
  rw [parsePageRequest_proper h, parsePageRequest_proper h']
  cases parseLimit limit <;> rfl

/-- Behind proper ids the empty pages are alike. -/
theorem noEntities_proper {id' : String} (h : ProperId id) (h' : ProperId id')
    (limit : Option String) : noEntities (parsePageRequest limit (some id)) =
      noEntities (parsePageRequest limit (some id')) := by
  rw [parsePageRequest_proper h, parsePageRequest_proper h']
  cases parseLimit limit <;> rfl

/-- How a statement of the record goes when nothing fails and the handler answers. -/
abbrev answering (limited : Option ApiErrorResult) (response : Response) (o : RecordStmt)
    (s : RecordState) : o.Answer × RecordState :=
  o.exec 0 { refused := limited, handler := ⟨.ok response, true⟩ } s

/-- A key that was never used, after it is claimed. -/
def claimedBy (s : RecordState) (route requestHash : String) : RecordState :=
  { s with
    record := some ⟨s.issued, route, requestHash, none, none, s.clock⟩
    claimant := 0
    issued := s.issued + 1 }

/-- A key that is claimed has its record. -/
theorem claimedBy_record (s : RecordState) (route requestHash : String) :
    (claimedBy s route requestHash).record =
      some ⟨s.issued, route, requestHash, none, none, s.clock⟩ := rfl

/-- A key that was never used is claimed. -/
theorem beginIdempotent_unclaimed {s : RecordState} (h : s.record = none)
    {limited : Option ApiErrorResult} {response : Response} (route requestHash : String) :
    (Idempotency.beginIdempotent route requestHash).alone (answering limited response) s =
      (.ok (.fresh s.issued), claimedBy s route requestHash) := by
  have hclaim : (Idempotency.claim route requestHash).alone (answering limited response) s =
      (.ok (some (.fresh s.issued)), claimedBy s route requestHash) := by
    simp only [Idempotency.claim, Idempotency.perform, Prog.bind_eq, Prog.bind, Prog.alone,
      answering, RecordStmt.exec, RecordChoice.write, h]
    rfl
  exact Prog.alone_bind hclaim _

/-- A claimed record, after it is stamped. -/
def stampedWith (s : RecordState) (record : IdempotencyRecord) (response : Response) :
    RecordState :=
  { s with
    record := some { record with
      responseStatus := some response.status, responseBody := some response.body } }

/-- Where no object is asked for, no answer rejects the body. -/
theorem rejectsBody_eq_false {env : Idempotency.Keying} {r : Idempotency.Request env}
    (h : r.requireObjectBody = false) (res : Response) : r.rejectsBody res = false := by
  rw [Idempotency.Request.rejectsBody, h, Bool.false_and, Bool.false_and]

/-- A claimed execution answers what its handler does. -/
theorem runClaimed_answered {s : RecordState} {record : IdempotencyRecord} {recordId : ℕ}
    (h : s.record = some record) (hid : record.id = recordId) (limited : Option ApiErrorResult)
    (response : Response) (key : Idempotency.Key) (id : String) (body : Option ExecuteBody) :
    ((Idempotency.runClaimed (executeRequest sys key id body) recordId).alone
      (answering limited response) s).1 = .ok (.answered response) := by
  have hfind : s.find recordId = some record := by
    simp [RecordState.find, h, hid]
  have hhandle : Idempotency.handle.alone (answering limited response) s = (.ok response, s) :=
    rfl
  have hcomplete : (Idempotency.completeIdempotent recordId response).alone
      (answering limited response) s = (.ok (), stampedWith s record response) := by
    simp only [Idempotency.completeIdempotent, Idempotency.perform, Prog.bind, Prog.alone,
      answering, RecordStmt.exec, RecordChoice.write, hfind]
    rfl
  -- no shape of the body is asked of an execution, so its answer is stamped
  have hkept := rejectsBody_eq_false (r := executeRequest sys key id body) rfl response
  have hrun : (Idempotency.runClaimed (executeRequest sys key id body) recordId).alone
      (answering limited response) s =
        (.ok (.answered response), stampedWith s record response) := by
    apply Prog.alone_handle
    rw [Prog.alone_bind hhandle, hkept, if_neg Bool.false_ne_true]
    exact Prog.alone_bind hcomplete _
  rw [hrun]

/-- A request that is not over its rate goes on with the length of its key. -/
theorem withIdempotentWrite_unlimited (record : RecordState) (key : Idempotency.Key)
    (id : String) (body : Option ExecuteBody) (response : Response) :
    (Idempotency.withIdempotentWrite (executeRequest sys key id body)).alone
      (answering none response) record =
    Prog.alone (answering none response)
      (if IDEMPOTENCY_KEY_MAX_LENGTH < key.val.length then
        .ret (.refused (apiError .invalidRequest
          (some s!"Idempotency-Key must be at most {IDEMPOTENCY_KEY_MAX_LENGTH} characters")))
      else
        (Idempotency.beginIdempotent (executeRequest sys key id body).route
          (sys.hashRequest body)).bind fun
          | .replay response => .ret (.replayed response)
          | .mismatch => .ret (.refused (apiError .idempotencyConflict))
          | .inFlight => .ret (.refused (apiError .conflict
              (some "a request with this Idempotency-Key is still in flight")))
          | .fresh recordId => Idempotency.runClaimed (executeRequest sys key id body) recordId)
      record :=
  rfl

/-- With a key that was never used, the wrapper answers what its handler does, unless it refuses
the request for its rate or its key. -/
theorem keyedReply_unclaimed {record : RecordState} (h : record.record = none)
    (limited : Option ApiErrorResult) (key : Idempotency.Key) (body : Option ExecuteBody)
    (answer : Answer) (id id' : String) : keyedReply sys record limited key id body answer =
      keyedReply sys record limited key id' body answer := by
  cases limited with
  | some refused => rfl
  | none =>
    have hreply : ∀ id, keyedReply sys record none key id body answer =
        ((Idempotency.withIdempotentWrite (executeRequest sys key id body)).alone
          (answering none (sys.render answer)) record).1 := fun _ => rfl
    rw [hreply, hreply, withIdempotentWrite_unlimited, withIdempotentWrite_unlimited]
    by_cases hlength : IDEMPOTENCY_KEY_MAX_LENGTH < key.val.length
    · rw [if_pos hlength, if_pos hlength]
    · rw [if_neg hlength, if_neg hlength, Prog.alone_bind (beginIdempotent_unclaimed h ..),
        Prog.alone_bind (beginIdempotent_unclaimed h ..)]
      have hanswered : ∀ id, ((Idempotency.runClaimed (executeRequest sys key id body)
          record.issued).alone (answering none (sys.render answer))
            (claimedBy record (executeRequest sys key id body).route (sys.hashRequest body))).1 =
              .ok (.answered (sys.render answer)) :=
        fun id => by
          have hrecord := claimedBy_record record (executeRequest sys key id body).route
            (sys.hashRequest body)
          exact runClaimed_answered hrecord rfl none (sys.render answer) key id body
      exact (hanswered id).trans (hanswered id').symm

end SettlementOS.Analysis
