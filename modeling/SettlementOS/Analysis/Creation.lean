import SettlementOS.Analysis.Conversions
import SettlementOS.Computation.Trails
import SettlementOS.Model.Units
import SettlementOS.Program.Creation

/-!
# What a payment is created from

The row that is written follows from the body and from who was found before it: the caller's own
entity, where the caller is a tenant, and the two parties. An accepted body makes a payment that can
be quoted.
-/

set_option autoImplicit false

namespace SettlementOS.Analysis.Creation

open SettlementOS.Computation Law Model Model.Creation Program.Creation

variable {deploy : Deploy} {r : Request} {past : List (Event creationEffects)}

/-- The caller may send it: it is the operator's, or was found to be the sender itself. -/
def Entitled (r : Request) (past : List (Event creationEffects)) : Prop :=
  r.principal.role = .operator ∨ r.principal.role = .entity ∧ ∃ entityId own,
    r.principal.entityId = some entityId ∧
      (⟨.findEntity entityId, .ok (some own)⟩ : Event creationEffects) ∈ past ∧
        r.body.senderId = some own.externalId

/-- An entity was found by its external id. -/
def Found (externalId : String) (e : Entity) (past : List (Event creationEffects)) : Prop :=
  (⟨.findByExternalId externalId, .ok (some e)⟩ : Event creationEffects) ∈ past

/-- What a payment needs before it is written. -/
def Founded (deploy : Deploy) (r : Request) (row : CreatedPayment) (event : AuditRecord)
    (past : List (Event creationEffects)) : Prop :=
  ∃ terms sender recipient id, Entitled r past ∧ validate deploy r.body = .ok terms ∧
    Found terms.senderId sender past ∧ Found terms.recipientId recipient past ∧
    row = createdRow r.body terms sender recipient id ∧ event = paymentCreated r.principal terms id

/-- The law of a request. -/
def entitlement (deploy : Deploy) (r : Request) : Law creationEffects where
  Answers _ _ := True
  Allows past e :=
    match e.stmt with
    | .create row event => Founded deploy r row event past
    | _ => True

/-- Who is not entitled is told nothing else. -/
def Told (r : Request) (reply : Reply) (past : List (Event creationEffects)) : Prop :=
  reply = .refused forbidden ∨ Entitled r past

/-- What follows a statement goes on from its answer. -/
theorem keeps_answered {α : Type} {o : CreationStmt} {rest : o.Result → Operation α}
    {X : α → List (Event creationEffects) → Prop}
    (hallows : ∀ a, (entitlement deploy r).Allows past ⟨o, a⟩)
    (hrest : ∀ x, (entitlement deploy r).Keeps X (fun _ _ => True) (rest x) (⟨o, .ok x⟩ :: past)) :
    (entitlement deploy r).Keeps X (fun _ _ => True) (call o >>= rest) past := by
  apply keeps_bind
  refine fun a _ => ⟨hallows a, keeps_ofExcept (fun x hx => ?_) fun _ _ => trivial⟩
  subst hx
  exact hrest x

/-- Who was entitled is entitled still. -/
theorem entitled_mono {later : List (Event creationEffects)} (h : Entitled r past)
    (hsub : past ⊆ later) : Entitled r later := by
  rcases h with hrole | ⟨hrole, entityId, own, hid, hread, hsender⟩
  · exact .inl hrole
  · exact .inr ⟨hrole, entityId, own, hid, hsub hread, hsender⟩

/-- A payment between parties that were found is told of as it was entered. -/
theorem keeps_createBetween {terms : Terms} (h : Entitled r past)
    (hterms : validate deploy r.body = .ok terms) :
    (entitlement deploy r).Keeps (Told r) (fun _ _ => True)
      (createBetween r.principal r.body terms) past := by
  refine keeps_answered (fun _ => trivial) fun sender => ?_
  refine keeps_answered (fun _ => trivial) fun recipient => ?_
  have hlater : Entitled r (⟨.findByExternalId terms.recipientId, .ok recipient⟩ ::
      ⟨.findByExternalId terms.senderId, .ok sender⟩ :: past) :=
    entitled_mono h fun _ hx => List.mem_cons_of_mem _ (List.mem_cons_of_mem _ hx)
  cases sender with
  | none => exact .inr hlater
  | some sender =>
    cases recipient with
    | none => exact .inr hlater
    | some recipient =>
      refine keeps_answered (fun _ => trivial) fun hex => ?_
      have hentitled := entitled_mono hlater (List.subset_cons_self (⟨.randomId, .ok hex⟩) _)
      refine keeps_answered (fun _ => ⟨terms, sender, recipient, "pay_" ++ hex, hentitled, hterms,
        ?_, ?_, rfl, rfl⟩) fun status => ?_
      · exact List.mem_cons_of_mem _ (List.mem_cons_of_mem _ List.mem_cons_self)
      · exact List.mem_cons_of_mem _ List.mem_cons_self
      · exact .inr (entitled_mono hentitled (List.subset_cons_self _ _))

/-- A request that may send what it asks for is told of what was entered. -/
theorem keeps_createAccepted (h : Entitled r past) :
    (entitlement deploy r).Keeps (Told r) (fun _ _ => True)
      (createAccepted deploy r.principal r.body) past := by
  unfold createAccepted
  split
  · exact .inr h
  · trivial
  · rename_i terms hterms
    exact keeps_createBetween h hterms

/-- Every request keeps the law. -/
theorem keeps_createPayment :
    (entitlement deploy r).Keeps (Told r) (fun _ _ => True)
      (createPayment deploy r.principal r.body) past := by
  unfold createPayment
  split
  · exact .inl rfl
  · rename_i hrole
    exact keeps_createAccepted (.inl hrole)
  · rename_i hrole
    unfold ownEntity
    split
    · rename_i entityId hgiven
      have hid : r.principal.entityId = some entityId := (Option.filter_eq_some_iff.mp hgiven).1
      refine keeps_answered (fun _ => trivial) fun own => ?_
      cases own with
      | none => exact .inl rfl
      | some own =>
        dsimp only
        split
        · exact .inl rfl
        · rename_i hsender
          exact keeps_createAccepted (.inr ⟨hrole, entityId, own, hid, List.mem_cons_self,
            not_not.mp hsender⟩)
    · exact .inl rfl

/-! ## What an accepted body comes to -/

/-- A network that the lookups of a deploy find, in the registry and, where contracts are there at
all, among them. -/
structure NetworkFound (deploy : Deploy) (network : Network) : Prop where
  listed : found (deploy.networks network) network = true
  deployed : deploy.isChainReady = true →
    found (deploy.deployments.networks network) network = true

/-- What the checks make sure of: the networks are found, the assets are the currencies', the amount
is written in full and positive, and the payment can be quoted. -/
structure WellFormed (deploy : Deploy) (row : CreatedPayment) : Prop where
  sourceNetwork : NetworkFound deploy row.payment.sourceNetwork
  destinationNetwork : NetworkFound deploy row.payment.destinationNetwork
  sourceAsset : currencyToAsset row.payment.sourceCurrency = some row.sourceAsset
  destinationAsset : currencyToAsset row.payment.destinationCurrency = some row.destinationAsset
  canonical : canonicalAmount row.payment.amount row.payment.sourceCurrency = .ok row.payment.amount
  quoted : ∃ minorUnits quote,
    parseAmount row.payment.amount row.payment.sourceCurrency = .ok minorUnits ∧ 0 < minorUnits ∧
      quoteFx minorUnits row.payment.sourceCurrency row.payment.destinationCurrency = .ok quote

section

variable {o : CreationStmt} {c : CreationChoice} {s s' : CreationState} {a : Except Err o.Result}

/-- What statements do to the rows: nothing, or a payment is written with its event. -/
inductive Leaves (o : CreationStmt) (s s' : CreationState) : Prop where
  | none (h : s' = s)
  | created (row : CreatedPayment) (event : AuditRecord) (ho : o = .create row event)
      (hfresh : ∀ old ∈ s.payments, old.payment.id ≠ row.payment.id)
      (h : s' = { s with payments := s.payments ++ [row], events := s.events ++ [event] })

/-- A statement that is carried out leaves the tables as it is meant to. -/
theorem leaves_of_perform : Leaves o s (perform o c s).2 := by
  cases o with
  | create row event =>
    simp only [perform]
    split
    · exact .none rfl
    · rename_i hnone
      refine .created row event rfl (fun old hold hid => hnone ?_) rfl
      exact List.any_eq_true.mpr ⟨old, hold, by simp [hid]⟩
  | _ => exact .none rfl

/-- So it does whatever becomes of its answer. -/
theorem leaves_of_exec (h : exec o c s = (a, s')) : Leaves o s s' := by
  unfold exec at h
  split at h
  · cases h
    exact .none rfl
  · cases h
    exact leaves_of_perform
  · have hs : (perform o c s).2 = s' := congrArg Prod.snd h
    exact hs ▸ leaves_of_perform

end

end SettlementOS.Analysis.Creation
