import Mathlib.Data.String.Basic
import Mathlib.Order.RelClasses
import SettlementOS.Analysis.Listings

/-!
# Whether a walk by cursor sees everything

A client asks for a page of the payments it may see, or of the audit log, and follows `next_cursor`
until `has_more` is false. Rows come while it does, but only so many; none goes, and none changes
where it stands or who may see it.
-/

set_option autoImplicit false

namespace SettlementOS.Results

open SettlementOS.Computation Table Model Program Analysis

/-- The payments while a caller walks over them, at each of its requests. Their ids can be sent as
cursors, as those that are drawn for new payments can. -/
structure PaymentsGrow (principal : Principal) (tables : ℕ → Tables) : Prop where
  stays : ∀ n, ∀ row ∈ (tables n).payments.rows, ∃ row' ∈ (tables (n + 1)).payments.rows,
    positionOf row' = positionOf row ∧
      visiblePaymentsWhere principal row' = visiblePaymentsWhere principal row
  finite : ∃ bound, ∀ n, (tables n).payments.rows.length ≤ bound
  proper : ∀ n, ∀ row ∈ (tables n).payments.rows, ProperId row.payment.id

/-- The audit log while a caller walks over it. Its ids are 32-bit integers. -/
structure EventsGrow (tables : ℕ → AuditEvents) : Prop where
  stays : ∀ n, ∀ e ∈ (tables n).rows, ∃ e' ∈ (tables (n + 1)).rows, e'.id = e.id
  finite : ∃ bound, ∀ n, (tables n).rows.length ≤ bound
  int4 : ∀ n, ∀ e ∈ (tables n).rows, e.id ≤ int4Max

/-- Following cursors sees every row once. There is a walk from the first page to one that has no
more; no id is seen twice, those shown at its start once, and only what is shown at some request;
and a page has no more exactly when no row is left after all that were seen. -/
def SeesAll {ρ ι ε : Type} [DecidableEq ι] (fetch : ℕ → Option String → Except ε ρ)
    (more : ρ → Bool) (next : ρ → Option String) (idsOf : ρ → List ι) (shown : ℕ → ι → Prop)
    (left : ℕ → List ρ → Prop) : Prop :=
  ∃ rs, Walked fetch more next 0 none rs ∧ (rs.flatMap idsOf).Nodup ∧
    (∀ id, shown 0 id → (rs.flatMap idsOf).count id = 1) ∧
    (∀ id ∈ rs.flatMap idsOf, ∃ n, shown n id) ∧
    ∀ earlier r later, rs = earlier ++ r :: later →
      (more r = false ↔ ¬ left earlier.length (earlier ++ [r]))

/-- A visible payment has the id. -/
def ShownPayment (principal : Principal) (tables : ℕ → Tables) (n : ℕ) (id : String) : Prop :=
  ∃ row ∈ (tables n).payments.rows, visiblePaymentsWhere principal row = true ∧ row.payment.id = id

/-- A visible payment comes after all that were seen. -/
def PaymentLeft (sys : Backend) (principal : Principal) (tables : ℕ → Tables) (n : ℕ)
    (seen : List Body) : Prop :=
  ∃ row ∈ (tables n).payments.rows, visiblePaymentsWhere principal row = true ∧
    ∀ u ∈ seen.flatMap Body.positions, Before (newestLe sys) u (positionOf row)

/-- The ids of a page of events. -/
def eventIds (page : Page AuditEvent) : List ℕ := page.rows.map AuditEvent.id

/-- An event comes after all that were seen. -/
def EventLeft (tables : ℕ → AuditEvents) (n : ℕ) (seen : List (Page AuditEvent)) : Prop :=
  ∃ e ∈ (tables n).rows, ∀ id ∈ seen.flatMap eventIds, e.id < id

/-- No more positions are shown than there are rows. -/
theorem length_le_of_shown {α κ π : Type} {key : α → κ} {pos : α → π} {p : α → Bool}
    {t : Table key} {vs : List π} (hnodup : vs.Nodup) (hshown : ∀ v ∈ vs, t.Shown pos p v) :
    vs.length ≤ t.rows.length := by
  have hsub : vs ⊆ t.rows.map pos := by
    intro v hv
    obtain ⟨row, hrow, -, rfl⟩ := hshown v hv
    exact List.mem_map_of_mem hrow
  have hle := (List.subperm_of_subset hnodup hsub).length_le
  rwa [List.length_map] at hle

/-- What stays from page to page stays. -/
theorem stays_of_le {π : Type} {V : ℕ → π → Prop} (hgrow : ∀ n v, V n v → V (n + 1) v) {n m : ℕ}
    (hle : n ≤ m) {v : π} (h : V n v) : V m v := by
  induction hle with
  | refl => exact h
  | step _ ih => exact hgrow _ v ih

section

variable {sys : Backend} {principal : Principal} {tables : ℕ → Tables}

/-- A payment that is shown is shown later on. -/
theorem PaymentsGrow.shown (h : PaymentsGrow principal tables) (n : ℕ) (v : ℕ × String)
    (hv : (tables n).payments.Shown positionOf (visiblePaymentsWhere principal) v) :
    (tables (n + 1)).payments.Shown positionOf (visiblePaymentsWhere principal) v := by
  obtain ⟨row, hrow, hvisible, rfl⟩ := hv
  obtain ⟨row', hrow', hposition, hsame⟩ := h.stays n row hrow
  exact ⟨row', hrow', hsame.trans hvisible, hposition⟩

/-- A payment keeps where it stands. -/
theorem PaymentsGrow.position_of_id (h : PaymentsGrow principal tables) {n m : ℕ}
    {u v : ℕ × String}
    (hu : (tables n).payments.Shown positionOf (visiblePaymentsWhere principal) u)
    (hv : (tables m).payments.Shown positionOf (visiblePaymentsWhere principal) v)
    (hid : u.2 = v.2) : u = v := by
  obtain ⟨row, hrow, -, rfl⟩ := stays_of_le h.shown (Nat.le_max_left n m) hu
  obtain ⟨row', hrow', -, rfl⟩ := stays_of_le h.shown (Nat.le_max_right n m) hv
  have hsame := List.inj_on_of_nodup_map (tables (max n m)).payments.unique hrow hrow' hid
  rw [hsame]

/-- Following the cursors of the payments sees every one of them once. -/
theorem payments_seen {limits : ℕ → Option String}
    (hcollate : IsLinearOrder String fun a b => sys.collate a b = true)
    (hgrow : PaymentsGrow principal tables) (hlimits : ∀ n, ∃ l, parseLimit (limits n) = .ok l) :
    SeesAll (fun n cursor => listPaymentsRoute sys (tables n) principal (limits n) cursor)
      Body.hasMore Body.nextCursor Body.paymentIds (ShownPayment principal tables)
      (PaymentLeft sys principal tables) := by
  have hlinear := newestLe_linear hcollate
  obtain ⟨bound, hbound⟩ := hgrow.finite
  obtain ⟨bodies, hwalk, hnodup, hall, hfound, hmore⟩ :=
    walk_complete (payments_reads hcollate hgrow.proper hlimits) hgrow.shown fun n vs hvs hshown =>
      (length_le_of_shown hvs hshown).trans (hbound n)
  have hids : bodies.flatMap Body.paymentIds =
      (visitedOf Body.positions bodies).map Prod.snd := by
    rw [visitedOf, List.map_flatMap]
    rfl
  have hdistinct : (bodies.flatMap Body.paymentIds).Nodup := by
    rw [hids]
    refine hnodup.map_on fun u hu v hv hid => ?_
    obtain ⟨n, hun⟩ := hfound u hu
    obtain ⟨m, hvm⟩ := hfound v hv
    exact hgrow.position_of_id hun hvm hid
  refine ⟨bodies, hwalk, hdistinct, ?_, ?_, ?_⟩
  · rintro id ⟨row, hrow, hvisible, rfl⟩
    refine List.count_eq_one_of_mem hdistinct ?_
    rw [hids]
    exact List.mem_map.mpr ⟨positionOf row, hall _ ⟨row, hrow, hvisible, rfl⟩, rfl⟩
  · intro id hid
    rw [hids] at hid
    obtain ⟨v, hv, rfl⟩ := List.mem_map.mp hid
    obtain ⟨n, row, hrow, hvisible, rfl⟩ := hfound v hv
    exact ⟨n, row, hrow, hvisible, rfl⟩
  · intro earlier body later hsplit
    rw [hmore earlier body later hsplit, not_iff_not]
    constructor
    · rintro ⟨v, ⟨row, hrow, hvisible, rfl⟩, hafter⟩
      exact ⟨row, hrow, hvisible, hafter⟩
    · rintro ⟨row, hrow, hvisible, hafter⟩
      exact ⟨positionOf row, ⟨row, hrow, hvisible, rfl⟩, hafter⟩

end

/-- Following the cursors of the events sees every one of them once. -/
theorem events_seen {principal : Principal} {tables : ℕ → AuditEvents} {limits : ℕ → Option String}
    (hplatform : isPlatformRole principal = true) (hgrow : EventsGrow tables)
    (hlimits : ∀ n, ∃ l, parseLimit (limits n) = .ok l) :
    SeesAll (fun n cursor => listAuditRoute (tables n) principal (limits n) cursor)
      Page.hasMore Page.nextCursor eventIds (fun n id => ∃ e ∈ (tables n).rows, e.id = id)
      (EventLeft tables) := by
  obtain ⟨bound, hbound⟩ := hgrow.finite
  have hshown : ∀ n v, (tables n).Shown AuditEvent.id (fun _ => true) v →
      (tables (n + 1)).Shown AuditEvent.id (fun _ => true) v := by
    rintro n v ⟨e, he, -, rfl⟩
    obtain ⟨e', he', hid⟩ := hgrow.stays n e he
    exact ⟨e', he', rfl, hid⟩
  obtain ⟨pages, hwalk, hnodup, hall, hfound, hmore⟩ :=
    walk_complete (audit_reads hplatform hgrow.int4 hlimits) hshown fun n vs hvs hin =>
      (length_le_of_shown hvs hin).trans (hbound n)
  refine ⟨pages, hwalk, hnodup, ?_, ?_, ?_⟩
  · rintro id ⟨e, he, rfl⟩
    exact List.count_eq_one_of_mem hnodup (hall e.id ⟨e, he, rfl, rfl⟩)
  · intro id hid
    obtain ⟨n, e, he, -, rfl⟩ := hfound id hid
    exact ⟨n, e, he, rfl⟩
  · intro earlier page later hsplit
    have hbefore : ∀ u v : ℕ, Before latestLe u v ↔ v < u := by
      intro u v
      simp only [Before, latestLe, decide_eq_true_eq]
      omega
    rw [hmore earlier page later hsplit, not_iff_not]
    simp only [hbefore]
    constructor
    · rintro ⟨v, ⟨e, he, -, rfl⟩, hafter⟩
      exact ⟨e, he, hafter⟩
    · rintro ⟨e, he, hafter⟩
      exact ⟨e.id, ⟨e, he, rfl, rfl⟩, hafter⟩

/-- Over tables of any size, with any ties, any limits from page to page and any finite number of
rows that come meanwhile, following `next_cursor` over the payments, or over the audit log, sees
every row there is to see once. -/
theorem listings_seen :
    (∀ (sys : Backend) (principal : Principal) (tables : ℕ → Tables) (limits : ℕ → Option String),
      (IsLinearOrder String fun a b => sys.collate a b = true) → PaymentsGrow principal tables →
      (∀ n, ∃ l, parseLimit (limits n) = .ok l) →
      SeesAll (fun n cursor => listPaymentsRoute sys (tables n) principal (limits n) cursor)
        Body.hasMore Body.nextCursor Body.paymentIds (ShownPayment principal tables)
        (PaymentLeft sys principal tables)) ∧
    ∀ (principal : Principal) (tables : ℕ → AuditEvents) (limits : ℕ → Option String),
      isPlatformRole principal = true → EventsGrow tables →
      (∀ n, ∃ l, parseLimit (limits n) = .ok l) →
      SeesAll (fun n cursor => listAuditRoute (tables n) principal (limits n) cursor)
        Page.hasMore Page.nextCursor eventIds (fun n id => ∃ e ∈ (tables n).rows, e.id = id)
        (EventLeft tables) :=
  ⟨fun _ _ _ _ hcollate hgrow hlimits => payments_seen hcollate hgrow hlimits,
    fun _ _ _ hplatform hgrow hlimits => events_seen hplatform hgrow hlimits⟩

/-! ## Two payments of one millisecond -/

/-- A database that orders ids as strings. -/
def plainBackend : Backend where
  collate a b := decide (a ≤ b)
  serve _ _ _ _ := .error notFound
  render _ := ⟨200, ""⟩
  hashRequest _ := ""

/-- A payment that was created at 1000. -/
def newRow (last : Fin 256) : PaymentRecord where
  payment :=
    { id := newPaymentId [0, 0, 0, 0, 0, last]
      status := .draft
      recipientId := "r"
      amount := "1.00"
      sourceCurrency := "USD"
      destinationCurrency := "USD"
      sourceNetwork := "alpha"
      destinationNetwork := "alpha" }
  senderId := "s"
  createdAt := 1000

/-- Two payments, and a third that comes with the first request. -/
def rowsAt (n : ℕ) : List PaymentRecord :=
  newRow 1 :: newRow 3 :: if n = 0 then [] else [newRow 2]

/-- A row of the sample is one of the new ones. -/
theorem newRow_of_mem {n : ℕ} {row : PaymentRecord} (h : row ∈ rowsAt n) :
    ∃ last, row = newRow last := by
  unfold rowsAt at h
  split_ifs at h
  · simp only [List.mem_cons, List.not_mem_nil, or_false] at h
    rcases h with rfl | rfl
    · exact ⟨1, rfl⟩
    · exact ⟨3, rfl⟩
  · simp only [List.mem_cons, List.not_mem_nil, or_false] at h
    rcases h with rfl | rfl | rfl
    · exact ⟨1, rfl⟩
    · exact ⟨3, rfl⟩
    · exact ⟨2, rfl⟩

/-- The tables of the sample, request by request. -/
def threePayments (n : ℕ) : Tables where
  entities := ⟨[], List.nodup_nil⟩
  payments := ⟨rowsAt n, by
    unfold rowsAt
    split_ifs <;> decide +kernel⟩
  records _ _ := .unused
  entityIds := by simp
  paymentIds := by
    intro row hrow
    obtain ⟨last, rfl⟩ := newRow_of_mem hrow
    have hproper : ProperId (newPaymentId [0, 0, 0, 0, 0, last]) := properId_newPaymentId rfl
    exact hproper.1

/-- An operator of the platform. -/
def someOperator : Principal := { keyId := "k", role := .operator, label := "ops" }

/-- An event with the id. -/
def eventAt (id : ℕ) : AuditEvent := ⟨id, none, "system", "payment.created", "{}", "", ""⟩

/-- Events 1 to 3, and one more with every request up to the third. -/
def growingEvents (n : ℕ) : AuditEvents where
  rows := (List.range (3 + min n 3)).map fun i => eventAt (i + 1)
  unique := by
    rw [List.map_map]
    exact List.nodup_range.map fun i j hij => Nat.succ.inj hij

/-- Page by page of one row, the payment that came in between included. -/
theorem listings_seen_growing :
    SeesAll (fun n cursor => listPaymentsRoute plainBackend (threePayments n) someOperator
        (some "1") cursor) Body.hasMore Body.nextCursor Body.paymentIds
        (ShownPayment someOperator threePayments)
        (PaymentLeft plainBackend someOperator threePayments) ∧
      SeesAll (fun n cursor => listAuditRoute (growingEvents n) someOperator (some "2") cursor)
        Page.hasMore Page.nextCursor eventIds (fun n id => ∃ e ∈ (growingEvents n).rows, e.id = id)
        (EventLeft growingEvents) := by
  have hcollate : IsLinearOrder String fun a b => plainBackend.collate a b = true := by
    have hle : (fun a b => plainBackend.collate a b = true) = fun a b : String => a ≤ b := by
      funext a b
      exact decide_eq_true_eq
    rw [hle]
    infer_instance
  have hpayments : PaymentsGrow someOperator threePayments := by
    refine ⟨fun n row hrow => ⟨row, ?_, rfl, rfl⟩, ⟨3, fun n => ?_⟩, fun n row hrow => ?_⟩
    · have hmem : row ∈ rowsAt n := hrow
      show row ∈ rowsAt (n + 1)
      unfold rowsAt at hmem ⊢
      rw [if_neg (Nat.succ_ne_zero n)]
      split_ifs at hmem
      · exact List.mem_append_left [newRow 2] hmem
      · exact hmem
    · show (rowsAt n).length ≤ 3
      unfold rowsAt
      split_ifs <;> simp
    · obtain ⟨last, rfl⟩ := newRow_of_mem hrow
      exact properId_newPaymentId rfl
  have hevents : EventsGrow growingEvents := by
    refine ⟨fun n e he => ⟨e, ?_, rfl⟩, ⟨6, fun n => ?_⟩, fun n e he => ?_⟩
    · obtain ⟨i, hi, rfl⟩ := List.mem_map.mp he
      have hlt := List.mem_range.mp hi
      exact List.mem_map.mpr ⟨i, List.mem_range.mpr (by omega), rfl⟩
    · simp [growingEvents]
      omega
    · obtain ⟨i, hi, rfl⟩ := List.mem_map.mp he
      have hlt := List.mem_range.mp hi
      show i + 1 ≤ 2147483647
      omega
  exact ⟨listings_seen.1 plainBackend someOperator threePayments (fun _ => some "1") hcollate
      hpayments fun _ => ⟨1, by decide +kernel⟩,
    listings_seen.2 someOperator growingEvents (fun _ => some "2") rfl hevents
      fun _ => ⟨2, by decide +kernel⟩⟩

end SettlementOS.Results
