import SettlementOS.Analysis.Creation

/-!
# What is in the table of payments

Every payment was asked for by an operator or by its own sender, has its parties among the entities,
its first event in the log, and can be quoted. Whom a tenant may not send for it learns nothing of.
-/

set_option autoImplicit false

namespace SettlementOS.Results

open SettlementOS.Computation Service Model Model.Creation Program.Creation Analysis.Creation

variable {deploy : ℕ → Deploy} {s : CreationState} {c c' : (service deploy).Config}
  {m : (service deploy).Move} {i : ℕ}

/-- Every run keeps the law of creation. -/
theorem lawful_creation (h : (Service.Config.start s).Reaches c) :
    Lawful (fun i r => entitlement (deploy i) r) (fun _ r => Told r) (fun _ _ _ _ => True) c :=
  h.keeps (fun _ _ _ _ _ _ _ _ => trivial) fun _ _ => keeps_createPayment

/-- The first events of payments. -/
def creations (s : CreationState) : List AuditRecord :=
  s.events.filter fun event => event.action = createdAction

/-- What a move does to the rows. -/
inductive RowsStep (c c' : (service deploy).Config) : Prop where
  | same (hpayments : c'.world.state.payments = c.world.state.payments)
      (hevents : creations c'.world.state = creations c.world.state)
      (hentities : c'.world.state.entities = c.world.state.entities)
  | enrolled (e : Entity) (hpayments : c'.world.state.payments = c.world.state.payments)
      (hevents : creations c'.world.state = creations c.world.state)
      (hnew : ∀ old ∈ c.world.state.entities, old.externalId ≠ e.externalId)
      (hentities : c'.world.state.entities = c.world.state.entities ++ [e])
  | created (i : ℕ) (t : (service deploy).Thread) (row : CreatedPayment) (event : AuditRecord)
      (ht : c.threads[i]? = some t)
      (hfounded : Founded (deploy i) t.request row event (trail i c.world.history))
      (hfresh : ∀ old ∈ c.world.state.payments, old.payment.id ≠ row.payment.id)
      (hpayments : c'.world.state.payments = c.world.state.payments ++ [row])
      (hevents : creations c'.world.state = creations c.world.state ++ [event])
      (hentities : c'.world.state.entities = c.world.state.entities)

/-- A step of a run does to the rows what its statement is meant to. -/
theorem rowsStep (h : (Service.Config.start s).Reaches c) (hm : c.step m = some c') :
    RowsStep c c' := by
  have hreach := h.tail hm
  rcases Config.step_eq_some hm with ⟨r, -, rfl⟩ | ⟨i, ch, r, o, k, a, w, rfl, hi, he, rfl⟩ |
    ⟨x, s', -, hs, rfl⟩
  · exact .same rfl rfl rfl
  · obtain ⟨s', hs, rfl⟩ := World.exec_eq_some.mp he
    obtain ⟨t, ht, hallows⟩ := (lawful_creation hreach).allows (l := []) rfl
    have hlt := (List.getElem?_eq_some_iff.mp hi).1
    have hrequest : t.request = r := by
      rw [List.getElem?_set_self hlt] at ht
      exact (congrArg Thread.request (Option.some.inj ht)).symm
    rw [hrequest] at hallows
    cases leaves_of_exec (Option.some.inj hs) with
    | none hsame =>
      subst hsame
      exact .same rfl rfl rfl
    | created row event ho hfresh hcreated =>
      subst ho
      subst hcreated
      have hfounded : Founded (deploy i) r row event (trail i c.world.history) := hallows
      have haction : event.action = createdAction := by
        obtain ⟨terms, _, _, _, -, -, -, -, -, rfl⟩ := hfounded
        rfl
      refine .created i _ row event hi hfounded hfresh rfl ?_ rfl
      refine (List.filter_append ..).trans ?_
      rw [List.filter_cons_of_pos (by simpa using haction), List.filter_nil]
      rfl
  · cases x with
    | enroll e =>
      obtain ⟨hnone, hs⟩ := Option.ite_none_left_eq_some.mp hs
      cases hs
      refine .enrolled e rfl rfl (fun old hold hsame => hnone ?_) rfl
      exact List.any_eq_true.mpr ⟨old, hold, by simp [hsame]⟩
    | audit record =>
      obtain ⟨hother, hs⟩ := Option.ite_none_left_eq_some.mp hs
      cases hs
      refine .same rfl ?_ rfl
      refine (List.filter_append ..).trans ?_
      rw [List.filter_cons_of_neg (by simpa using hother), List.filter_nil, List.append_nil]
      rfl

/-! ## Who was found -/

/-- Entities stay in the table. -/
theorem entities_kept (h : (Service.Config.start s).Reaches c) (hto : c.Reaches c') {e : Entity}
    (he : e ∈ c.world.state.entities) : e ∈ c'.world.state.entities := by
  refine hto.induct (P := fun c' : (service deploy).Config => e ∈ c'.world.state.entities) he ?_
  intro c₁ m c₂ hto₁ hmem hm
  cases rowsStep (h.trans hto₁) hm with
  | same hpayments hevents hentities => exact hentities ▸ hmem
  | enrolled e' hpayments hevents hnew hentities =>
    rw [hentities]
    exact List.mem_append_left _ hmem
  | created j t row event ht hfounded hfresh hpayments hevents hentities => exact hentities ▸ hmem

/-- What a payment and its first event come from. -/
structure Originates (entities : List Entity) (r : Request) (row : CreatedPayment)
    (event : AuditRecord) (terms : Terms) (sender recipient : Entity) : Prop where
  made : row = createdRow r.body terms sender recipient row.payment.id
  logged : event = paymentCreated r.principal terms row.payment.id
  sends : sender ∈ entities ∧ r.body.senderId = some sender.externalId
  receives : recipient ∈ entities ∧ r.body.recipientId = some recipient.externalId
  caller : r.principal.role = .operator ∨
    r.principal.role = .entity ∧ r.principal.entityId = some row.senderId

/-- A payment is accounted for by a request, and fit to be worked with. -/
def AccountedFor (c : (service deploy).Config) (row : CreatedPayment) (event : AuditRecord) :
    Prop :=
  ∃ (i : ℕ) (t : (service deploy).Thread) (terms : Terms) (sender recipient : Entity),
    c.threads[i]? = some t ∧ validate (deploy i) t.request.body = .ok terms ∧
      Originates c.world.state.entities t.request row event terms sender recipient ∧
      WellFormed (deploy i) row

/-- A payment that is accounted for stays so. -/
theorem AccountedFor.step (h : (Service.Config.start s).Reaches c) (hm : c.step m = some c')
    {row : CreatedPayment} {event : AuditRecord} (hrow : AccountedFor c row event) :
    AccountedFor c' row event := by
  obtain ⟨i, t, terms, sender, recipient, ht, hterms, horigin, hformed⟩ := hrow
  obtain ⟨t', ht', hrequest⟩ := Config.request_of_step hm ht
  have hto : c.Reaches c' := (Config.Reaches.refl c).tail hm
  refine ⟨i, t', terms, sender, recipient, ht', hrequest ▸ hterms, ?_, hformed⟩
  rw [hrequest]
  exact { horigin with
    sends := ⟨entities_kept h hto horigin.sends.1, horigin.sends.2⟩
    receives := ⟨entities_kept h hto horigin.receives.1, horigin.receives.2⟩ }

end SettlementOS.Results
