import SettlementOS.Analysis.Tenancy
import SettlementOS.Results.Terminal

/-!
# An id of somebody else is an id of nothing

A tenant that names a payment it is no party to, or gives a cursor that is not its own, is
answered as if there were no such row: in the same words, whatever else the tables hold.
-/

set_option autoImplicit false

namespace SettlementOS.Results

open SettlementOS.Computation Model Program Analysis

/-! ## Statement -/

/-- The id is of a row the principal has no part in. -/
def Outside (db : Tables) (principal : Principal) (e : Endpoint) (id : String) : Prop :=
  if e.ofEntities then
    ∃ row ∈ db.entities.rows, row.entity.id = id ∧ principal.entityId ≠ some id
  else
    ∃ row ∈ db.payments.rows, row.payment.id = id ∧ principal.entityId ≠ some row.senderId ∧
      principal.entityId ≠ some row.payment.recipientId

/-- The id is of no row. -/
def Missing (db : Tables) (e : Endpoint) (id : String) : Prop :=
  if e.ofEntities then ∀ row ∈ db.entities.rows, row.entity.id ≠ id
  else ∀ row ∈ db.payments.rows, row.payment.id ≠ id

/-- The idempotency key of the request, where it has one, was never used. -/
def Unclaimed (db : Tables) (principal : Principal) : Endpoint → Prop
  | .executePayment _ (some key) _ => (db.records principal.keyId key).record = none
  | _ => True

/-! ## Proof -/

variable {sys : Backend} {db : Tables} {principal : Principal} {e : Endpoint} {id : String}

/-- What is outside the tenant's scope is hidden from it. -/
theorem Outside.hidden (h : Outside db principal e id) : Hidden db principal e id := by
  unfold Outside at h
  unfold Hidden
  by_cases he : e.ofEntities = true
  · rw [if_pos he] at h ⊢
    obtain ⟨-, -, -, hother⟩ := h
    exact fun _ _ _ => hother
  · rw [if_neg he] at h ⊢
    obtain ⟨row, hrow, hid, hparties⟩ := h
    intro row' hrow' hid'
    have heq : row' = row :=
      List.inj_on_of_nodup_map db.payments.unique hrow' hrow (hid'.trans hid.symm)
    rw [heq]
    exact hparties

/-- It has an id. -/
theorem Outside.ne_empty (h : Outside db principal e id) : id ≠ "" := by
  unfold Outside at h
  by_cases he : e.ofEntities = true
  · rw [if_pos he] at h
    obtain ⟨row, hrow, hid, -⟩ := h
    exact hid ▸ db.entityIds row hrow
  · rw [if_neg he] at h
    obtain ⟨row, hrow, hid, -⟩ := h
    exact hid ▸ db.paymentIds row hrow

/-- What is missing is hidden from everybody. -/
theorem Missing.hidden (h : Missing db e id) : Hidden db principal e id := by
  unfold Missing at h
  unfold Hidden
  by_cases he : e.ofEntities = true
  · rw [if_pos he] at h ⊢
    exact fun row hrow hid => absurd hid (h row hrow)
  · rw [if_neg he] at h ⊢
    exact fun row hrow hid => absurd hid (h row hrow)

/-- Two ids are refused in the same words. -/
theorem refusal_eq {id' : String} (h : ProperId id) (h' : ProperId id')
    (hunclaimed : Unclaimed db principal e) :
    refusal sys (db.records principal.keyId) id e =
      refusal sys (db.records principal.keyId) id' e := by
  cases e with
  | executePayment limited key body =>
    cases key with
    | none => rfl
    | some key =>
      exact congrArg Outcome.keyed (keyedReply_unclaimed hunclaimed limited key body _ id id')
  | listPayments limit => exact congrArg Outcome.answer (cursorRefused_proper h h' limit)
  | listEntities limit => exact congrArg Outcome.answer (noEntities_proper h h' limit)
  | listPaymentsTool limit => exact congrArg Outcome.answer (cursorRefused_proper h h' _)
  | listEntitiesTool limit => exact congrArg Outcome.answer (cursorRefused_proper h h' _)
  | getPayment => rfl
  | quotePayment limited => rfl
  | cancelPayment limited => rfl
  | getPaymentTool => rfl

/-- **An id of somebody else is an id of nothing.** Whoever calls with the key of an entity, at
whatever endpoint: for an id of a row it has no part in it gets what it would get if the row were
not there, whatever the tables then hold; and what it gets for any other id that is not there. -/
theorem foreign_id_is_missing_id {keys : List ApiKey} {keyHash : String}
    (hkey : principalForKey keys keyHash = some principal) (hrole : principal.role = .entity)
    (h : Outside db principal e id) :
    (∀ db' : Tables, db'.records = db.records → Missing db' e id →
        e.respond sys db' principal id = e.respond sys db principal id) ∧
      ∀ id', Missing db e id' → ProperId id → ProperId id' → Unclaimed db principal e →
        e.respond sys db principal id' = e.respond sys db principal id := by
  have ht : Tenant principal := ⟨hrole, entityId_of_key hkey hrole⟩
  rw [respond_hidden ht h.hidden h.ne_empty]
  constructor
  · intro db' hrecords hmissing
    rw [respond_hidden ht hmissing.hidden h.ne_empty, hrecords]
  · intro id' hmissing hproper hproper' hunclaimed
    rw [respond_hidden ht hmissing.hidden hproper'.1]
    exact refusal_eq hproper' hproper hunclaimed

/-! ## Sample -/

/-- A key of an entity that is no party to the sample payment. -/
def strangerKey : ApiKey := ⟨"k2", "h", "ENTITY", some "stranger", "tenant"⟩

/-- An entity that is no party to the sample payment. -/
def stranger : Principal :=
  { keyId := "k2", role := .entity, entityId := some "stranger", label := "tenant" }

/-- The sample payment, and nothing else. -/
def sampleDatabase : Tables where
  entities := ⟨[], List.nodup_nil⟩
  payments := ⟨[⟨samplePayment.row, "s", 0, [], [], [], none⟩], List.nodup_singleton _⟩
  records := fun _ _ => .unused
  entityIds := by decide
  paymentIds := by decide

/-- A backend whose answers tell whether the id was found. -/
def sampleBackend : Backend where
  collate a b := decide (a ≤ b)
  serve _ _ _ _ := .ok (.written "")
  render answer := ⟨if answer.isOk then 200 else 404, ""⟩
  hashRequest _ := ""

/-- The sample payment, asked for by a stranger. -/
theorem foreign_id_is_missing_id_sample :
    Outside sampleDatabase stranger .getPayment "p" ∧
      Endpoint.getPayment.respond sampleBackend sampleDatabase stranger "q" =
        Endpoint.getPayment.respond sampleBackend sampleDatabase stranger "p" := by
  have houtside : Outside sampleDatabase stranger .getPayment "p" :=
    ⟨_, List.mem_singleton_self _, rfl, by decide, by decide⟩
  have hmissing : Missing sampleDatabase .getPayment "q" := by
    intro row hrow
    rw [List.mem_singleton.mp hrow]
    decide
  have hkey : principalForKey [strangerKey] "h" = some stranger := by decide +kernel
  exact ⟨houtside, (foreign_id_is_missing_id hkey rfl houtside).2 "q" hmissing
    ⟨by decide, by decide⟩ ⟨by decide, by decide⟩ trivial⟩

end SettlementOS.Results
